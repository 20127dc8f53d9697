/-
Managed transfer records (services/ManagedTransferTaskPolicy.ets).

A runner reports progress with `applyManagedTransferProgress`; a record that
an application start finds is settled by `recoverManagedTransferRecord`. An
update is taken whole or not at all, so what every taken update keeps
(`applyManagedTransferProgress_accepted`) a whole run keeps: the four counters
do not fall and stay within a total that is known, the stage moves along
`canTransitionManagedTransfer` and settles nothing itself. Recovery is done at
once (`recover_settled`, `recover_recover`).

Numbers are those of a script without `NaN`, which no check of a counter lets
through.
-/
import RemoteDesk.Lib.Double
import RemoteDesk.Lib.Runs

namespace RemoteDesk.Files.Managed

open Lib

inductive TransferStage
  | preparing | transferring | paused | waitingRemote | completed | failed
  | cancelled | ready | offered | senderCompleted | verifying | committing
  | waitingConnection | cancelling | commitUnknown | expired | handedOff
  | interrupted
  deriving DecidableEq

inductive ManagedTransferEvidence
  | none | offered | senderCompleted | metadataVerified | contentVerified
  | exported
  deriving DecidableEq

inductive TransferProtocol
  | ssh | rdp | rustdesk

inductive TransferDirection
  | upload | download

/-- What a runner reports; what it leaves out stays. -/
structure ManagedTransferProgress (D : Type) where
  stage : Option TransferStage := none
  readBytes : Option D := none
  sentBytes : Option D := none
  writtenBytes : Option D := none
  verifiedBytes : Option D := none
  totalBytes : Option D := none

structure ManagedTransferRecord (D : Type) where
  schemaVersion : D
  taskId : String := ""
  attemptId : D
  batchId : String := ""
  sourceKind : String := ""
  leaseId : String := ""
  accountScopeId : String := ""
  hostId : String := ""
  protocol : TransferProtocol := .rdp
  direction : TransferDirection := .upload
  fileName : String := ""
  totalBytes : D
  readBytes : D
  sentBytes : D
  writtenBytes : D
  verifiedBytes : D
  stage : TransferStage := .preparing
  evidence : ManagedTransferEvidence := .none
  commitStarted : Bool := false
  diagnosticCode : String := ""
  createdAt : D
  updatedAt : D

def managedTransferTerminal (stage : TransferStage) : Bool :=
  stage = .completed || stage = .failed || stage = .cancelled
    || stage = .expired || stage = .handedOff || stage = .interrupted

/-- No runner moves the record again. -/
def managedTransferSettled (stage : TransferStage) : Bool :=
  managedTransferTerminal stage || stage = .paused || stage = .commitUnknown

def canTransitionManagedTransfer (fromStage toStage : TransferStage) : Bool :=
  if fromStage = toStage then true
  else if managedTransferTerminal fromStage || fromStage = .commitUnknown
      || fromStage = .cancelling then false
  else if toStage = .paused || toStage = .waitingConnection then
    fromStage ≠ .committing
  else match fromStage with
    | .preparing =>
      toStage = .ready || toStage = .offered || toStage = .transferring
    | .ready | .offered =>
      toStage = .transferring || toStage = .senderCompleted
    | .transferring =>
      toStage = .senderCompleted || toStage = .verifying
        || toStage = .waitingRemote
    | .senderCompleted => toStage = .verifying || toStage = .waitingRemote
    | .waitingRemote =>
      toStage = .verifying || toStage = .transferring
        || toStage = .senderCompleted
    | .paused | .waitingConnection =>
      toStage = .preparing || toStage = .transferring
    -- of several files each is committed before the next one
    | .committing => toStage = .transferring || toStage = .verifying
    | _ => false

variable {D : Type} [JsDouble D]

def managedTransferInteger (value : D) : Bool :=
  isInteger value && decide (value ≤ JsNumber.ofInt (2 ^ 53 - 1))
    && decide (JsNumber.ofInt 0 ≤ value)

/-- The schema version of a copy is that of a new record. -/
def copyManagedTransferRecord (record : ManagedTransferRecord D) :
    ManagedTransferRecord D :=
  { record with schemaVersion := JsNumber.ofInt 2 }

def recoverManagedTransferRecord (value : ManagedTransferRecord D) :
    ManagedTransferRecord D :=
  let result := copyManagedTransferRecord value
  if managedTransferTerminal result.stage then result
  else if result.stage = .paused ∧ result.evidence = .offered then
    { result with stage := .handedOff }
  else if result.stage = .commitUnknown then
    { result with
      diagnosticCode := if result.diagnosticCode ≠ "" then result.diagnosticCode
        else "interrupted_commit" }
  else if result.commitStarted = true ∨ result.stage = .committing then
    { result with stage := .commitUnknown
                  diagnosticCode := "interrupted_commit" }
  else
    -- a paused result keeps the reason its runner gave
    { result with
      diagnosticCode := if result.stage = .paused ∧ result.diagnosticCode ≠ ""
        then result.diagnosticCode else "interrupted"
      stage := .interrupted }

/-- Stages no update leaves. -/
def frozen (stage : TransferStage) : Bool :=
  managedTransferTerminal stage || stage = .cancelling
    || stage = .commitUnknown

/-- The stage after an update, if the update may set it. Every stage passes
`managedTransferStageValid`. -/
def nextStage (stage : TransferStage) :
    Option TransferStage → Option TransferStage
  | none => some stage
  | some next =>
    if managedTransferTerminal next || next = .committing
        || next = .commitUnknown || next = .cancelling
        || !canTransitionManagedTransfer stage next then none
    else some next

def applyManagedTransferProgress (now : D) (record : ManagedTransferRecord D)
    (progress : ManagedTransferProgress D) :
    Option (ManagedTransferRecord D) :=
  if frozen record.stage then none
  else (nextStage record.stage progress.stage).bind fun stage =>
    let next :=
      { copyManagedTransferRecord record with
        stage
        totalBytes := progress.totalBytes.getD record.totalBytes
        readBytes := progress.readBytes.getD record.readBytes
        sentBytes := progress.sentBytes.getD record.sentBytes
        writtenBytes := progress.writtenBytes.getD record.writtenBytes
        verifiedBytes := progress.verifiedBytes.getD record.verifiedBytes }
    if !managedTransferInteger next.totalBytes
        || !managedTransferInteger next.readBytes
        || !managedTransferInteger next.sentBytes
        || !managedTransferInteger next.writtenBytes
        || !managedTransferInteger next.verifiedBytes
        || next.readBytes < record.readBytes
        || next.sentBytes < record.sentBytes
        || next.writtenBytes < record.writtenBytes
        || next.verifiedBytes < record.verifiedBytes
        || (JsNumber.ofInt 0 < next.totalBytes
          && next.totalBytes < max (max (max next.readBytes next.sentBytes)
            next.writtenBytes) next.verifiedBytes) then none
    else some { next with updatedAt := now }

-- ============================= one update

/-- No counter has fallen. -/
structure NotBelow (r s : ManagedTransferRecord D) : Prop where
  read : r.readBytes ≤ s.readBytes
  sent : r.sentBytes ≤ s.sentBytes
  written : r.writtenBytes ≤ s.writtenBytes
  verified : r.verifiedBytes ≤ s.verifiedBytes

theorem NotBelow.refl (r : ManagedTransferRecord D) : NotBelow r r :=
  ⟨le_rfl, le_rfl, le_rfl, le_rfl⟩

theorem NotBelow.trans {r s t : ManagedTransferRecord D} (h : NotBelow r s)
    (h' : NotBelow s t) : NotBelow r t :=
  ⟨h.read.trans h'.read, h.sent.trans h'.sent, h.written.trans h'.written,
    h.verified.trans h'.verified⟩

/-- No counter exceeds a total that is known. -/
def Within (r : ManagedTransferRecord D) : Prop :=
  JsNumber.ofInt 0 < r.totalBytes → r.readBytes ≤ r.totalBytes
    ∧ r.sentBytes ≤ r.totalBytes ∧ r.writtenBytes ≤ r.totalBytes
    ∧ r.verifiedBytes ≤ r.totalBytes

/-- Where an update may take a stage. -/
structure Moves (fromStage toStage : TransferStage) : Prop where
  allowed : canTransitionManagedTransfer fromStage toStage = true
  notTerminal : managedTransferTerminal toStage = false
  notCommitting : toStage ≠ .committing
  notUnknown : toStage ≠ .commitUnknown
  notCancelling : toStage ≠ .cancelling

/-- What a taken update does to a record. -/
structure Accepted (r s : ManagedTransferRecord D) : Prop where
  live : frozen r.stage = false
  notBelow : NotBelow r s
  within : Within s
  stage : s.stage = r.stage ∨ Moves r.stage s.stage

theorem nextStage_eq_some {stage next : TransferStage}
    {asked : Option TransferStage} (h : nextStage stage asked = some next) :
    next = stage ∨ Moves stage next := by
  cases asked with
  | none => exact .inl (Option.some.inj h).symm
  | some s =>
    rw [nextStage] at h
    split at h
    · cases h
    · rename_i hok
      cases h
      simp only [Bool.or_eq_true, decide_eq_true_eq, Bool.not_eq_true',
        not_or, Bool.not_eq_true, Bool.not_eq_false] at hok
      obtain ⟨⟨⟨⟨hterminal, hcommitting⟩, hunknown⟩, hcancelling⟩, hcan⟩ := hok
      exact .inr ⟨hcan, hterminal, hcommitting, hunknown, hcancelling⟩

/-- The checks of an update, read off its result. -/
theorem applyManagedTransferProgress_accepted {now : D}
    {record next : ManagedTransferRecord D}
    {progress : ManagedTransferProgress D}
    (h : applyManagedTransferProgress now record progress = some next) :
    Accepted record next := by
  unfold applyManagedTransferProgress at h
  by_cases hfrozen : frozen record.stage = true
  · rw [if_pos hfrozen] at h
    cases h
  rw [if_neg hfrozen, Option.bind_eq_some_iff] at h
  obtain ⟨stage, hstage, h⟩ := h
  dsimp only at h
  split at h
  · cases h
  rename_i hok
  obtain rfl := Option.some.inj h
  simp only [Bool.or_eq_true, decide_eq_true_eq, Bool.and_eq_true, not_or,
    not_and, not_lt, max_le_iff] at hok
  obtain ⟨⟨⟨⟨⟨-, hread⟩, hsent⟩, hwritten⟩, hverified⟩, htotal⟩ := hok
  refine ⟨by simpa using hfrozen, ⟨hread, hsent, hwritten, hverified⟩, ?_,
    nextStage_eq_some hstage⟩
  intro hpos
  obtain ⟨⟨⟨hr, hs⟩, hw⟩, hv⟩ := htotal hpos
  exact ⟨hr, hs, hw, hv⟩

-- ==================================== runs

/-- A record after an update; one that is not taken leaves it. -/
def report (record : ManagedTransferRecord D)
    (op : D × ManagedTransferProgress D) : ManagedTransferRecord D :=
  (applyManagedTransferProgress op.1 record op.2).getD record

/-- What has become of `record` is `s`. -/
structure Progressed (record s : ManagedTransferRecord D) : Prop where
  notBelow : NotBelow record s
  within : Within s
  stage : Relation.ReflTransGen Moves record.stage s.stage
  frozen : frozen record.stage = true → s = record

theorem Progressed.report {record s : ManagedTransferRecord D}
    (h : Progressed record s) (op : D × ManagedTransferProgress D) :
    Progressed record (report s op) := by
  unfold Managed.report
  cases hnext : applyManagedTransferProgress op.1 s op.2 with
  | none => exact h
  | some next =>
    have haccepted := applyManagedTransferProgress_accepted hnext
    refine ⟨h.notBelow.trans haccepted.notBelow, haccepted.within, ?_, ?_⟩
    · rcases haccepted.stage with hsame | hmoves
      · show Relation.ReflTransGen Moves record.stage next.stage
        rw [hsame]
        exact h.stage
      · exact h.stage.tail hmoves
    · intro hfrozen
      have hlive := haccepted.live
      rw [h.frozen hfrozen, hfrozen] at hlive
      cases hlive

theorem progressed_run {record : ManagedTransferRecord D} (h : Within record)
    (ops : List (D × ManagedTransferProgress D)) :
    Progressed record (exec report record ops) := by
  have hstart : Progressed record record :=
    ⟨.refl record, h, .refl, fun _ => rfl⟩
  exact @exec_invariant _ _ report (Progressed record)
    (fun _ op hs => hs.report op) record ops hstart

-- ================================ recovery

/-- What recovery makes of a record. -/
structure Recovered (r s : ManagedTransferRecord D) : Prop where
  settled : managedTransferSettled s.stage = true
  counters : s.readBytes = r.readBytes ∧ s.sentBytes = r.sentBytes
    ∧ s.writtenBytes = r.writtenBytes ∧ s.verifiedBytes = r.verifiedBytes
    ∧ s.totalBytes = r.totalBytes
  again : recoverManagedTransferRecord s = s

theorem recover_settled (r : ManagedTransferRecord D) :
    Recovered r (recoverManagedTransferRecord r) := by
  unfold recoverManagedTransferRecord
  dsimp only
  by_cases hterminal :
      managedTransferTerminal (copyManagedTransferRecord r).stage = true
  · rw [if_pos hterminal]
    refine ⟨by simp [managedTransferSettled, hterminal],
      ⟨rfl, rfl, rfl, rfl, rfl⟩, ?_⟩
    unfold recoverManagedTransferRecord
    exact if_pos hterminal
  rw [if_neg hterminal]
  by_cases hoffered : (copyManagedTransferRecord r).stage = .paused
      ∧ (copyManagedTransferRecord r).evidence = .offered
  · rw [if_pos hoffered]
    exact ⟨rfl, ⟨rfl, rfl, rfl, rfl, rfl⟩, rfl⟩
  rw [if_neg hoffered]
  by_cases hunknown : (copyManagedTransferRecord r).stage = .commitUnknown
  · rw [if_pos hunknown]
    refine ⟨by simp [managedTransferSettled, hunknown],
      ⟨rfl, rfl, rfl, rfl, rfl⟩, ?_⟩
    unfold recoverManagedTransferRecord
    dsimp only [copyManagedTransferRecord] at hunknown ⊢
    rw [hunknown, if_neg (by decide), if_neg (by simp), if_pos rfl]
    congr 1
    by_cases hcode : r.diagnosticCode = ""
    · simp [hcode]
    · simp [hcode]
  rw [if_neg hunknown]
  by_cases hstarted : (copyManagedTransferRecord r).commitStarted = true
      ∨ (copyManagedTransferRecord r).stage = .committing
  · rw [if_pos hstarted]
    exact ⟨rfl, ⟨rfl, rfl, rfl, rfl, rfl⟩, rfl⟩
  · rw [if_neg hstarted]
    exact ⟨rfl, ⟨rfl, rfl, rfl, rfl, rfl⟩, rfl⟩

/-- A record within its total stays so under every sequence of updates, no
counter falls and no stage is skipped; recovery settles every record, keeps
its counters and is done at once. -/
theorem managed_transfer_progress (record : ManagedTransferRecord D)
    (h : Within record) (ops : List (D × ManagedTransferProgress D)) :
    Progressed record (exec report record ops)
      ∧ (∀ now progress next,
        applyManagedTransferProgress now (exec report record ops) progress
            = some next →
          Accepted (exec report record ops) next)
      ∧ ∀ r : ManagedTransferRecord D,
        Recovered r (recoverManagedTransferRecord r) :=
  ⟨progressed_run h ops,
    fun _ _ _ hnext => applyManagedTransferProgress_accepted hnext,
    recover_settled⟩

/-- A fresh record of integers, and one update of it. -/
def freshRecord : ManagedTransferRecord Int :=
  { schemaVersion := 2, attemptId := 1, totalBytes := 10, readBytes := 0
    sentBytes := 0, writtenBytes := 0, verifiedBytes := 0, createdAt := 0
    updatedAt := 0 }

theorem managed_transfer_progress_fresh :
    Progressed freshRecord
      (exec report freshRecord [(1, { stage := some .transferring
                                      readBytes := some 4 })]) :=
  (managed_transfer_progress freshRecord
    (fun _ => by decide) _).1

end RemoteDesk.Files.Managed
