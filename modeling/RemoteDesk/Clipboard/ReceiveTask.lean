/-
One download of clipboard files (rdp_clipboard_receive.cpp), at the
grain of its locks.

# The worker and its callers

`run` is a program of points; each `work` does one critical section of
it and the local work up to the next. The callers' `response`, `cancel`
and `offerChanged` come in between. `sendMutex` is held by the worker
from one point to another (`sendHeld`); `cancel` takes it and `mutex`
together, so it waits while the worker has it. A step whose lock is
taken changes nothing.

# The surroundings

`WorkEnv` says what the system does in one step: whether a deadline has
passed, what the channel answers, which call of the file system fails,
how `pwrite` splits a block, and whether something throws. Stream ids
come from a counter that other tasks share (`skipped`). Of the stage
directory only the files under `files` are kept, with their content, and
the partial file being written; a `null` answer of nonzero size is an
unsuccessful one.

`log`, `answers` and `receipts` are histories of the model, which
nothing of the task reads.
-/
import RemoteDesk.Clipboard.FileOffer
import RemoteDesk.Lib.Runs

namespace RemoteDesk.Clipboard

open Lib

-- =================================== types

/-- `RdpClipboardFileRequest`. -/
structure RdpClipboardFileRequest where
  streamId : Nat := 0
  index : Nat := 0
  offset : Nat := 0
  requested : Nat := 0
  sizeQuery : Bool := false
  clipDataId : Nat := 0
deriving DecidableEq, Repr

inductive ReceivePhase where
  | unavailable
  | queued
  | receiving
  | verifying
  | cancelling
  | completed
  | failed
  | cancelled
deriving DecidableEq, Repr

def terminal (phase : ReceivePhase) : Bool :=
  phase = .completed || phase = .failed || phase = .cancelled

structure RemoteClipboardArtifact where
  index : Nat := 0
  relativeName : List UInt8 := []
  directory : Bool := false
  size : Nat := 0
deriving DecidableEq, Repr

structure RemoteClipboardReceiveStatus where
  schema : Nat := 1
  taskId : Nat := 0
  sequence : Nat := 0
  phase : ReceivePhase := .unavailable
  transferredBytes : Nat := 0
  totalBytes : Nat := 0
  totalKnown : Bool := false
  currentIndex : Nat := 0
  artifacts : List RemoteClipboardArtifact := []
  diagnosticCode : String := ""
deriving DecidableEq, Repr

/-- How far `request` has come. -/
inductive RequestPoint where
  | admitting
  | sendLocking
  | sendChecking
  | sending
  | sendLeaving (sent : Bool)
  | waiting
deriving DecidableEq, Repr

/-- How far `run` has come. -/
inductive WorkerPoint where
  | queued
  /-- The loop over the sizes. -/
  | sizing
  /-- In `request`, for this value. -/
  | requesting (value : RdpClipboardFileRequest) (point : RequestPoint)
  /-- Before the phase is set to receiving. -/
  | starting
  /-- The loop over the files. -/
  | entering
  | naming
  /-- The loop over the blocks of a file. -/
  | copying
  | budgeting (value : RdpClipboardFileRequest) (bytes : List UInt8)
  | counting (bytes : Nat)
  /-- Before the phase is set to verifying. -/
  | verifying
  | finishLocking
  | finishChecking
  | unlocking
  | finishing
  | ended
deriving DecidableEq, Repr

/-- One `pwrite`. -/
inductive PWrite where
  | interrupted
  | failed
  | wrote (count : Nat)
deriving DecidableEq, Repr

/-- What the system does during one step of the worker; `fault` is the
number of the failing call, from one. -/
structure WorkEnv where
  fault : Nat := 0
  late : Bool := false
  skipped : Nat := 0
  sent : Bool := true
  timedOut : Bool := false
  thrown : Bool := false
  pwrites : List PWrite := []
deriving DecidableEq, Repr

inductive ReceiveEvent where
  /-- A request is made the pending one. -/
  | asked (value : RdpClipboardFileRequest)
  /-- The sender is called. -/
  | sent (value : RdpClipboardFileRequest)
  | accepted (streamId : Nat) (success : Bool) (data : List UInt8)
  /-- The pending request is dropped. -/
  | cleared
  /-- `cancel` returns true. -/
  | cancelled
  | unlocked (clipDataId : Nat)
deriving DecidableEq, Repr

/-- A file written, with the answers it was written from. -/
structure FileReceipt where
  entry : RemoteClipboardFileEntry
  answers : List (RdpClipboardFileRequest × List UInt8)
  content : List UInt8
deriving DecidableEq, Repr

structure ReceiveTask where
  status : RemoteClipboardReceiveStatus := {}
  maxTotalBytes : Nat := 2 * 1024 * 1024 * 1024
  entries : List RemoteClipboardFileEntry := []
  hasUnlocker : Bool := false
  clipDataId : Nat := 0
  cancelled : Bool := false
  started : Bool := false
  hugeFileSupported : Bool := false
  responseReady : Bool := false
  responseSuccess : Bool := false
  pending : RdpClipboardFileRequest := {}
  responseData : List UInt8 := []
  sendHeld : Bool := false
  /-- `offerChanged`s about to call `cancel`. -/
  offerCancels : Nat := 0
  nextStream : Nat := 1
  -- the locals of the worker
  point : WorkerPoint := .queued
  error : String := ""
  artifacts : List RemoteClipboardArtifact := []
  created : Bool := false
  opened : Bool := false
  complete : Bool := false
  total : Nat := 0
  next : Nat := 0
  offset : Nat := 0
  -- the stage directory
  partialFile : List UInt8 := []
  files : List (List UInt8 × List UInt8) := []
  -- histories
  log : List ReceiveEvent := []
  answers : List (RdpClipboardFileRequest × List UInt8) := []
  receipts : List FileReceipt := []
deriving DecidableEq, Repr

def kBlockBytes : Nat := 512 * 1024

/-- `std::atomic` stream ids end with 32 bits. -/
def maxStream : Nat := 2 ^ 32 - 1

-- =================================== files

def pwrite (file bytes : List UInt8) (offset : Nat) : List UInt8 :=
  file.take offset ++ List.replicate (offset - file.length) 0 ++ bytes
    ++ file.drop (offset + bytes.length)

/-- `writeAll`, over what each `pwrite` does; past the end of the list
one call writes all that is left. -/
def writeAll (results : List PWrite) (file bytes : List UInt8)
    (offset : Nat) : List UInt8 × Bool :=
  if bytes = [] then (file, true)
  else
    match results with
    | [] => (pwrite file bytes offset, true)
    | .interrupted :: rest => writeAll rest file bytes offset
    | .failed :: _ => (file, false)
    | .wrote count :: rest =>
      if count = 0 then (file, false)
      else writeAll rest (pwrite file (bytes.take count) offset)
        (bytes.drop count) (offset + count)

namespace ReceiveTask

-- ============================== the worker

/-- `return false`. -/
def quit (s : ReceiveTask) : ReceiveTask := { s with point := .finishLocking }

def fail (s : ReceiveTask) (error : String) : ReceiveTask :=
  { s with error := error, point := .finishLocking }

def note (s : ReceiveTask) (event : ReceiveEvent) : ReceiveTask :=
  { s with log := s.log ++ [event] }

def limit (s : ReceiveTask) : Nat := min s.maxTotalBytes kMaxTotalBytes

def begin (s : ReceiveTask) (env : WorkEnv) : ReceiveTask :=
  if s.cancelled then s.quit
  else
    match env.fault with
    | 0 => { s with created := true, opened := true, point := .sizing }
    | 1 => s.fail "private_stage_create_failed"
    | 2 => { s with created := true }.fail "private_stage_open_failed"
    | _ => { s with created := true, opened := true }.fail
        "private_stage_open_failed"

/-- The budget check of the loop over the sizes. -/
def addSize (s : ReceiveTask) (entry : RemoteClipboardFileEntry) :
    ReceiveTask :=
  if !s.hugeFileSupported && 0x80000000 ≤ entry.size
      || (s.limit + 2 ^ 64 - s.total) % 2 ^ 64 < entry.size then
    s.fail "file_size_budget_exceeded"
  else { s with
    total := (s.total + entry.size) % 2 ^ 64
    next := s.next + 1
    point := .sizing }

/-- A turn of the loop over the sizes, or the storage probe behind it. -/
def size (s : ReceiveTask) (env : WorkEnv) : ReceiveTask :=
  match s.entries[s.next]? with
  | none =>
    match env.fault with
    | 0 => { s with point := .starting }
    | 1 => s.fail "storage_probe_failed"
    | _ => s.fail "insufficient_storage"
  | some entry =>
    if s.cancelled then s.quit
    else if !entry.sizeKnown && !entry.directory then
      let value : RdpClipboardFileRequest :=
        { index := entry.index, requested := 8, sizeQuery := true }
      { s with point := .requesting value .admitting }
    else s.addSize entry

/-- The rest of the turn, with the answer to a size query. -/
def sized (s : ReceiveTask) (bytes : List UInt8) : ReceiveTask :=
  match s.entries[s.next]? with
  | none => s
  | some entry =>
    if bytes.length ≠ 8 then s.fail "invalid_file_size_response"
    else
      let entry := { entry with size := leNat bytes, sizeKnown := true }
      let s := { s with entries := s.entries.set s.next entry }
      s.addSize entry

/-- The end of `request`, and what its caller does with the answer. -/
def take (s : ReceiveTask) (value : RdpClipboardFileRequest) :
    ReceiveTask :=
  let bytes := s.responseData
  let s := { s with responseData := [] }
  if value.sizeQuery then s.sized bytes
  else if bytes = [] ∨ value.requested < bytes.length then
    s.fail "premature_file_eof"
  else { s with point := .budgeting value bytes }

def request (s : ReceiveTask) (env : WorkEnv)
    (value : RdpClipboardFileRequest) : RequestPoint → ReceiveTask
  | .admitting =>
    let stream := s.nextStream + env.skipped
    let s := { s with nextStream := stream + 1 }
    if maxStream < stream then s.fail "stream_ids_exhausted"
    else if s.cancelled then s.quit
    else if env.late then s.fail "receive_overall_timeout"
    else
      let value := { value with
        streamId := stream, clipDataId := s.clipDataId }
      { s with
        pending := value
        responseReady := false
        responseData := []
        point := .requesting value .sendLocking }.note (.asked value)
  | .sendLocking =>
    { s with sendHeld := true, point := .requesting value .sendChecking }
  | .sendChecking =>
    if s.cancelled then
      { s with point := .requesting value (.sendLeaving false) }
    else { s with point := .requesting value .sending }
  | .sending =>
    { s with point := .requesting value (.sendLeaving env.sent) }.note
      (.sent value)
  | .sendLeaving sent =>
    let s := { s with sendHeld := false }
    if sent then { s with point := .requesting value .waiting }
    else s.fail "file_request_send_failed"
  | .waiting =>
    if !s.cancelled && !s.responseReady then
      if env.timedOut then
        let s := { s with pending := {} }
        let s := s.note .cleared
        s.fail "file_request_timeout"
      else s
    else if s.cancelled then s.quit
    else
      let s := { s with pending := {} }
      let s := s.note .cleared
      if s.responseSuccess then s.take value
      else s.fail "remote_file_response_failed"

def receiving (s : ReceiveTask) : ReceiveTask :=
  if s.cancelled then s.quit
  else { s with
    status := { s.status with
      totalBytes := s.total, totalKnown := true, phase := .receiving }
    next := 0
    point := .entering }

/-- The name an artifact is reported under. -/
def artifactName (s : ReceiveTask) (name : List UInt8) : List UInt8 :=
  ascii ("receive-" ++ toString s.status.taskId ++ "/files/") ++ name

/-- The end of a turn of the loop over the files. -/
def push (s : ReceiveTask) (entry : RemoteClipboardFileEntry) :
    ReceiveTask :=
  { s with
    artifacts := s.artifacts ++ [{
      index := entry.index
      relativeName := s.artifactName entry.relativeName
      directory := entry.directory
      size := entry.size }]
    next := s.next + 1
    point := .entering }

/-- The head of the loop over the files, or what comes after it. -/
def enter (s : ReceiveTask) (env : WorkEnv) : ReceiveTask :=
  if s.cancelled then s.quit
  else if s.next < s.entries.length then { s with point := .naming }
  else if env.fault ≠ 0 then s.fail "artifact_commit_failed"
  else { s with complete := true, point := .finishLocking }

def name (s : ReceiveTask) (env : WorkEnv) : ReceiveTask :=
  match s.entries[s.next]? with
  | none => s
  | some entry =>
    let s := { s with
      status := { s.status with currentIndex := entry.index } }
    if entry.directory then
      if env.fault ≠ 0 then s.fail "directory_create_failed"
      else s.push entry
    else
      match env.fault with
      | 0 => { s with
          offset := 0
          partialFile := []
          answers := []
          point := .copying }
      | 1 => s.fail "directory_create_failed"
      | _ => s.fail "partial_create_failed"

def copy (s : ReceiveTask) : ReceiveTask :=
  match s.entries[s.next]? with
  | none => s
  | some entry =>
    if s.cancelled then s.quit
    else if s.offset < entry.size then
      let value : RdpClipboardFileRequest :=
        { index := entry.index
          offset := s.offset
          requested := min kBlockBytes (entry.size - s.offset) }
      { s with point := .requesting value .admitting }
    else { s with point := .verifying }

/-- The budget check on a block, and its write. -/
def store (s : ReceiveTask) (env : WorkEnv)
    (value : RdpClipboardFileRequest) (bytes : List UInt8) : ReceiveTask :=
  if s.limit < s.status.transferredBytes
      ∨ s.limit - s.status.transferredBytes < bytes.length then
    s.fail "file_size_budget_exceeded"
  else
    let (file, ok) := writeAll env.pwrites s.partialFile bytes s.offset
    let s := { s with partialFile := file }
    if ok then { s with
      offset := s.offset + bytes.length
      answers := s.answers ++ [(value, bytes)]
      point := .counting bytes.length }
    else s.fail "partial_write_failed"

def count (s : ReceiveTask) (bytes : Nat) : ReceiveTask :=
  { s with
    status := { s.status with
      transferredBytes := s.status.transferredBytes + bytes }
    point := .copying }

/-- The phase is set, the partial file checked and linked. -/
def verify (s : ReceiveTask) (env : WorkEnv) : ReceiveTask :=
  match s.entries[s.next]? with
  | none => s
  | some entry =>
    let s := { s with status := { s.status with phase := .verifying } }
    if env.fault = 1 ∨ s.partialFile.length ≠ entry.size then
      s.fail "partial_verify_failed"
    else if env.fault = 2 then s.fail "artifact_commit_failed"
    else
      let s := { s with
        files := s.files ++ [(entry.relativeName, s.partialFile)] }
      if env.fault ≠ 0 then s.fail "artifact_commit_failed"
      else
        let receipt : FileReceipt :=
          { entry := entry, answers := s.answers, content := s.partialFile }
        let s := { s with receipts := s.receipts ++ [receipt] }
        s.push entry

/-- After `finishLock`: a task that failed or was cancelled is cleaned. -/
def finishCheck (s : ReceiveTask) (env : WorkEnv) : ReceiveTask :=
  if !s.complete || s.cancelled then
    { s with
      files := if s.opened ∧ env.fault = 0 then [] else s.files
      artifacts := []
      complete := false
      point := .unlocking }
  else { s with point := .unlocking }

def unlock (s : ReceiveTask) (env : WorkEnv) : ReceiveTask :=
  let s := { s with point := .finishing }
  if s.clipDataId ≠ 0 ∧ s.hasUnlocker then
    let s := s.note (.unlocked s.clipDataId)
    if env.thrown ∧ s.error = "" then
      { s with error := "clipboard_unlock_failed" }
    else s
  else s

def finish (s : ReceiveTask) : ReceiveTask :=
  { s with
    clipDataId := 0
    pending := {}
    log := s.log ++ [.cleared]
    status := { s.status with
      phase := if s.complete ∧ ¬ s.cancelled then .completed
        else if s.cancelled then .cancelled else .failed
      diagnosticCode := if s.status.diagnosticCode = "" then s.error
        else s.status.diagnosticCode
      artifacts := if s.complete ∧ ¬ s.cancelled then s.artifacts
        else s.status.artifacts }
    hasUnlocker := false
    sendHeld := false
    point := .ended }

/-- An exception inside `work` releases its locks. -/
def throw (s : ReceiveTask) : ReceiveTask :=
  let s := { s with sendHeld := false }
  s.fail "receive_worker_exception"

/-- One step of `run`. -/
def work (s : ReceiveTask) (env : WorkEnv) : ReceiveTask :=
  match s.point with
  | .finishLocking =>
    { s with sendHeld := true, point := .finishChecking }
  | .finishChecking => s.finishCheck env
  | .unlocking => s.unlock env
  | .finishing => s.finish
  | .ended => s
  | .requesting value .sending =>
    if env.thrown then (s.note (.sent value)).throw
    else s.request env value .sending
  | point =>
    if env.thrown then s.throw
    else
      match point with
      | .queued => s.begin env
      | .sizing => s.size env
      | .requesting value point => s.request env value point
      | .starting => s.receiving
      | .entering => s.enter env
      | .naming => s.name env
      | .copying => s.copy
      | .budgeting value bytes => s.store env value bytes
      | .counting bytes => s.count bytes
      | .verifying => s.verify env
      | _ => s

-- ============================= the callers

/-- `response`, and whether it returns true. -/
def response (s : ReceiveTask) (streamId : Nat) (success : Bool)
    (data : List UInt8) : ReceiveTask :=
  if !s.started || s.cancelled || streamId = 0
      || s.pending.streamId ≠ streamId || s.responseReady then s
  else
    let ok := success && data.length ≤ s.pending.requested
    { s with
      responseReady := true
      responseSuccess := ok
      responseData := if ok then data else [] }.note
        (.accepted streamId ok data)

def cancel (s : ReceiveTask) (reason : String) : ReceiveTask :=
  if s.sendHeld then s
  else if !s.started || terminal s.status.phase then s
  else { s with
    cancelled := true
    status := { s.status with
      phase := .cancelling, diagnosticCode := reason } }.note .cancelled

/-- The first lock of `offerChanged`. -/
def offerChanged (s : ReceiveTask) (sequence : Nat) : ReceiveTask :=
  if s.started && s.clipDataId = 0 && s.status.sequence ≠ sequence then
    { s with offerCancels := s.offerCancels + 1 }
  else s

/-- Its call of `cancel`. -/
def offerCancel (s : ReceiveTask) : ReceiveTask :=
  if s.sendHeld ∨ s.offerCancels = 0 then s
  else
    let s := { s with offerCancels := s.offerCancels - 1 }
    s.cancel "clipboard_changed_without_lock"

end ReceiveTask

-- ==================================== runs

inductive ReceiveOp where
  | work (env : WorkEnv)
  | response (streamId : Nat) (success : Bool) (data : List UInt8)
  | cancel (reason : String)
  | offerChanged (sequence : Nat)
  | offerCancel
deriving DecidableEq, Repr

namespace ReceiveTask

def step (s : ReceiveTask) : ReceiveOp → ReceiveTask
  | .work env => s.work env
  | .response streamId success data => s.response streamId success data
  | .cancel reason => s.cancel reason
  | .offerChanged sequence => s.offerChanged sequence
  | .offerCancel => s.offerCancel

/-- The entries `start` copies: those selected, and what lies below a
selected directory. -/
def included (offer : RemoteClipboardFileOffer) (selected : List Nat)
    (entry : RemoteClipboardFileEntry) : Bool :=
  selected.contains entry.index
    || selected.any fun index =>
      match offer.entries[index]? with
      | none => false
      | some parent => parent.directory
          && (parent.relativeName ++ [47]).isPrefixOf entry.relativeName

/-- A `start` that returns true: the stage directory is sound and the
executor takes the job. `taken` stream ids have been given out before. -/
def start (maxTotalBytes taskId : Nat) (offer : RemoteClipboardFileOffer)
    (selected : List Nat) (clipDataId : Nat) (hasUnlocker : Bool)
    (taken : Nat) : Option ReceiveTask :=
  if taskId = 0 ∨ offer.state ≠ .ready ∨ ¬ offer.streamSupported
      ∨ offer.entries = [] ∨ 1024 < offer.entries.length ∨ selected = []
    then none
  else if ∃ index ∈ selected, offer.entries.length ≤ index then none
  else
    let entries := offer.entries.filter (included offer selected)
    if ∃ entry ∈ entries,
        safeRelativeName entry.relativeName ≠ some entry.relativeName
      then none
    else if entries = [] then none
    else some {
      maxTotalBytes := maxTotalBytes
      started := true
      clipDataId := clipDataId
      hugeFileSupported := offer.hugeFileSupported
      entries := entries
      hasUnlocker := hasUnlocker
      nextStream := taken + 1
      status := {
        taskId := taskId
        sequence := offer.sequence
        phase := .queued } }

end ReceiveTask

end RemoteDesk.Clipboard
