/-
A file transfer job (`file_transfer.rs`).

# The job

A job has a status behind one lock, the connect epoch of its connection
behind another, and an atomic cancellation flag. `check` is what a
worker asks between blocks; `finish` takes the terminal decision.

# Left out

The authentication exchange, the write marker and the directory and
result slots have locks of their own and take no part in the decision.
The clocks, the permission snapshot and the table of cancelled epochs
are read through `CheckEnv`.
-/
import RemoteDesk.Lib.Runs

namespace RemoteDesk.Files

abbrev Bytes := List UInt8

-- ================================== errors

/-- `std::io::ErrorKind`, as far as the transfers use it. -/
inductive ErrorKind
  | interrupted
  | permissionDenied
  | timedOut
  | unexpectedEof
  | invalidInput
  | invalidData
  | writeZero
  | other
deriving DecidableEq, Repr

/-- The `Debug` name of a kind. -/
def ErrorKind.name : ErrorKind → String
  | .interrupted => "Interrupted"
  | .permissionDenied => "PermissionDenied"
  | .timedOut => "TimedOut"
  | .unexpectedEof => "UnexpectedEof"
  | .invalidInput => "InvalidInput"
  | .invalidData => "InvalidData"
  | .writeZero => "WriteZero"
  | .other => "Other"

/-- `std::io::Error`. -/
structure IoError where
  kind : ErrorKind
  text : String
deriving DecidableEq, Repr

/-- `REPORTED_FILE_ERRORS`: reasons the app explains to the user. -/
def reportedFileErrors : List String :=
  ["peer_prelogin", "peer_file_service_unavailable",
    "remote_file_transfer_disabled", "remote_one_way_transfer",
    "remote_path_not_found", "remote_permission_denied",
    "remote_disk_full"]

/-- `file_error_code`. -/
def fileErrorCode (error : IoError) : String :=
  if error.text ∈ reportedFileErrors then error.text
  else error.kind.name

-- ================================== status

/-- The states of a job: 2, 4, 5 and 6 on the wire. -/
inductive TransferState
  | running
  | failed
  | cancelled
  | complete
deriving DecidableEq, Repr

/-- `RustDeskTransferStatus` with its text. -/
structure TransferStatus where
  state : TransferState := .running
  transferId : Nat
  transferredBytes : Nat := 0
  totalBytes : Nat
  diagnosticCode : Nat := 0
  text : String := ""
deriving DecidableEq, Repr

namespace TransferStatus

/-- `progress`, inside the status lock: a job without a byte total
reports its count as is. -/
def progress (status : TransferStatus) (bytes : Nat) : TransferStatus :=
  if status.state = .running then
    { status with
      transferredBytes := if status.totalBytes > 0 then
        min bytes status.totalBytes else bytes }
  else status

/-- The terminal decision of `finish`, for a result that was checked. -/
def decide (status : TransferStatus) (result : Except IoError Unit) :
    TransferStatus :=
  match result with
  | .ok () => { status with state := .complete }
  | .error error =>
    { status with
      state := if error.kind = .interrupted then .cancelled
        else .failed
      diagnosticCode := 1
      text := "file_transfer:" ++ fileErrorCode error }

end TransferStatus

-- =================================== check

/-- What `check` reads outside the job. -/
structure CheckEnv where
  /-- The peer revoked the file permission. -/
  revoked : Bool := false
  /-- The bound epoch is in the table of cancelled epochs. -/
  epochCancelled : Bool := false
  /-- The transfer or its last progress is too old. -/
  expired : Bool := false
deriving DecidableEq, Repr

/-- `check`. -/
def checkTransfer (cancelled : Bool) (epoch : Nat) (env : CheckEnv) :
    Except IoError Unit :=
  if env.revoked then
    .error ⟨.permissionDenied, "file permission revoked"⟩
  else if cancelled || (decide (epoch ≠ 0) && env.epochCancelled) then
    .error ⟨.interrupted, "file transfer cancelled"⟩
  else if env.expired then .error ⟨.timedOut, "file transfer deadline"⟩
  else .ok ()

/-- A cancelled job never passes its check. -/
theorem checkTransfer_cancelled (epoch : Nat) (env : CheckEnv) :
    ∃ error, checkTransfer true epoch env = .error error := by
  unfold checkTransfer
  split
  · exact ⟨_, rfl⟩
  · exact ⟨_, rfl⟩

end RemoteDesk.Files
