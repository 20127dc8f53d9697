/-
The sink of a download (`DownloadSink`, `file_transfer.rs`).

# The sink

A block is decoded, held against what is still missing, and written to the stage
file in as many writes as it takes. The job is asked before each of them. What
happens outside, at each call of the job or the file, is a `SinkMoment`; what zstd
makes of a block is a parameter.

# What is in the file

`writeFrom_appends` is the loop: it appends a part of the block, and all of it when
it succeeds. A block that is broken off in its writes leaves the part that was
written; one that is refused before leaves nothing.
-/
import RemoteDesk.Lib.Runs
import RemoteDesk.Files.TransferJob

namespace RemoteDesk.Files

open Lib

-- ================================ decoding

/-- What zstd makes of a block: an error where the decoder is made, or the output,
and perhaps an error behind it. -/
structure ZstdStream where
  opens : Except IoError Unit := .ok ()
  output : Bytes := []
  ends : Option IoError := none

/-- `MAX_BLOCK`. -/
def maxBlock : Nat := 128 * 1024

/-- The decoder is read to its end, or to one byte over the limit. -/
def decompress (stream : ZstdStream) : Except IoError Bytes :=
  match stream.opens with
  | .error error => .error error
  | .ok () =>
    if stream.output.length > maxBlock then
      .error ⟨.invalidData, "download decompression exceeds limit"⟩
    else
      match stream.ends with
      | some error => .error error
      | none => .ok stream.output

/-- The bytes of a block. -/
def decodeBlock (zstd : Bytes → ZstdStream) (data : Bytes) (compressed : Bool) :
    Except IoError Bytes :=
  if data.length > maxBlock then
    .error ⟨.invalidData, "download block exceeds limit"⟩
  else if compressed then decompress (zstd data)
  else .ok data

-- ==================================== sink

structure DownloadSink where
  file : Bytes := []
  expectedSize : Nat
  modified : Nat
  written : Nat := 0
deriving DecidableEq, Repr

/-- What a call meets outside the sink. -/
structure SinkMoment where
  cancelled : Bool := false
  epoch : Nat := 0
  env : CheckEnv := {}
  /-- How much a write takes at most. -/
  write : Except IoError Nat := .ok maxBlock
  metadata : Except IoError Unit := .ok ()
  setTimes : Except IoError Unit := .ok ()
  syncAll : Except IoError Unit := .ok ()

/-- `job.check()`. -/
def SinkMoment.check (m : SinkMoment) : Except IoError Unit :=
  checkTransfer m.cancelled m.epoch m.env

/-- `write_at`: a file that is too short is filled up with zeros. -/
def writeAt (file : Bytes) (offset : Nat) (bytes : Bytes) : Bytes :=
  file.take offset ++ List.replicate (offset - file.length) 0 ++ bytes
    ++ file.drop (offset + bytes.length)

/-- `i64::MAX`. -/
def maxTimestamp : Nat := 2 ^ 63 - 1

namespace DownloadSink

/-- `new`, of a file that is empty and can be written where `usable` says so. -/
def new (usable : Bool) (expectedSize modified : Nat) :
    Except IoError DownloadSink :=
  if !usable then
    .error ⟨.invalidInput, "download requires an empty writable stage fd"⟩
  else if expectedSize > 2 ^ 32 * 65536 ∨ modified > maxTimestamp then
    .error ⟨.invalidInput, "remote metadata out of range"⟩
  else .ok { expectedSize, modified }

/-- `n` bytes of a block are in the file. -/
def wrote (sink : DownloadSink) (bytes : Bytes) : DownloadSink :=
  { sink with
    file := writeAt sink.file sink.written bytes
    written := sink.written + bytes.length }

/-- The loop of `write_block`. Every write takes a byte or ends it, so as many
rounds as there are bytes are enough. -/
def writeFrom (moment : Nat → SinkMoment) :
    Nat → Nat → DownloadSink → TransferStatus → Bytes →
      DownloadSink × TransferStatus × Except IoError Unit
  | 0, _, sink, status, _ => (sink, status, .ok ())
  | fuel + 1, t, sink, status, rest =>
    if rest = [] then (sink, status, .ok ())
    else
      match (moment t).check, (moment t).write with
      | .error error, _ => (sink, status, .error error)
      | .ok (), .error error => (sink, status, .error error)
      | .ok (), .ok count =>
        if min count rest.length = 0 then
          (sink, status,
            .error ⟨.writeZero, "download stage write returned zero"⟩)
        else
          let sink := sink.wrote (rest.take count)
          writeFrom moment fuel (t + 1) sink (status.progress sink.written)
            (rest.drop count)

def writeBlock (zstd : Bytes → ZstdStream) (moment : Nat → SinkMoment)
    (sink : DownloadSink) (status : TransferStatus) (data : Bytes)
    (compressed : Bool) : DownloadSink × TransferStatus × Except IoError Unit :=
  match (moment 0).check with
  | .error error => (sink, status, .error error)
  | .ok () =>
    match decodeBlock zstd data compressed with
    | .error error => (sink, status, .error error)
    | .ok bytes =>
      if bytes.length > sink.expectedSize - sink.written then
        (sink, status,
          .error ⟨.invalidData, "download exceeds expected file size"⟩)
      else writeFrom moment bytes.length 1 sink status bytes

def complete (moment : Nat → SinkMoment) (sink : DownloadSink) :
    Except IoError Unit :=
  match (moment 0).check with
  | .error error => .error error
  | .ok () =>
    if sink.written ≠ sink.expectedSize then
      .error ⟨.unexpectedEof, "download size does not match metadata"⟩
    else
      match (moment 1).metadata with
      | .error error => .error error
      | .ok () =>
        if sink.file.length ≠ sink.expectedSize then
          .error ⟨.unexpectedEof, "download size does not match metadata"⟩
        else if sink.modified > maxTimestamp then
          .error ⟨.invalidInput, "remote timestamp out of range"⟩
        else
          match (moment 2).setTimes, (moment 3).syncAll with
          | .error error, _ => .error error
          | .ok (), .error error => .error error
          | .ok (), .ok () => (moment 4).check

end DownloadSink

-- ==================================== runs

/-- A block as it was received, and what happened at it. -/
structure SinkCall where
  data : Bytes
  compressed : Bool
  moment : Nat → SinkMoment

/-- What a call came to: the bytes it added to the file. -/
structure SinkEntry where
  call : SinkCall
  before : DownloadSink
  result : Except IoError Unit
  landed : Bytes

structure DownloadRun where
  sink : DownloadSink
  status : TransferStatus
  log : List SinkEntry := []

/-- A block comes; `complete` changes nothing. -/
def DownloadRun.step (zstd : Bytes → ZstdStream) (run : DownloadRun)
    (call : SinkCall) : DownloadRun :=
  let outcome := run.sink.writeBlock zstd call.moment run.status call.data
    call.compressed
  { sink := outcome.1
    status := outcome.2.1
    log := run.log ++
      [{ call
         before := run.sink
         result := outcome.2.2
         landed := outcome.1.file.drop run.sink.file.length }] }

/-- The blocks that were accepted. -/
def accepted (log : List SinkEntry) : Bytes :=
  ((log.filter fun entry => entry.result.isOk).map (·.landed)).flatten

/-- A call that is accepted added its decoded block; one that was refused for its
size or its decompression added nothing; any other added a part of it. A block that
fits is accepted unless a check or a write fails. -/
structure SinkEntry.Fits (zstd : Bytes → ZstdStream) (entry : SinkEntry) : Prop where
  accepted : entry.result = .ok () →
    decodeBlock zstd entry.call.data entry.call.compressed = .ok entry.landed
  undecoded : ∀ error,
    decodeBlock zstd entry.call.data entry.call.compressed = .error error →
      entry.result ≠ .ok () ∧ entry.landed = []
  oversized : ∀ bytes,
    decodeBlock zstd entry.call.data entry.call.compressed = .ok bytes →
      bytes.length > entry.before.expectedSize - entry.before.written →
        entry.result ≠ .ok () ∧ entry.landed = []
  part : ∀ bytes,
    decodeBlock zstd entry.call.data entry.call.compressed = .ok bytes →
      entry.landed <+: bytes
  succeeds : ∀ bytes,
    decodeBlock zstd entry.call.data entry.call.compressed = .ok bytes →
      bytes.length ≤ entry.before.expectedSize - entry.before.written →
      (∀ t, (entry.call.moment t).check = .ok ()
        ∧ ∃ count, count ≠ 0 ∧ (entry.call.moment t).write = .ok count) →
        entry.result = .ok ()

/-- The file is what the calls added, within the expected size. -/
structure DownloadRun.Written (zstd : Bytes → ZstdStream) (run : DownloadRun) :
    Prop where
  bounded : run.sink.written ≤ run.sink.expectedSize
  counted : run.sink.written = run.sink.file.length
  file : run.sink.file = (run.log.map (·.landed)).flatten
  fits : ∀ entry ∈ run.log, entry.Fits zstd

-- ================================ the loop

/-- What is written behind the end is appended. -/
theorem writeAt_length (file bytes : Bytes) :
    writeAt file file.length bytes = file ++ bytes := by
  rw [writeAt, List.take_length, Nat.sub_self, List.replicate_zero,
    List.append_nil, List.drop_eq_nil_of_le (Nat.le_add_right _ _),
    List.append_nil]

namespace DownloadSink

/-- The sink behind some bytes. -/
structure Appends (sink sink' : DownloadSink) (landed : Bytes) : Prop where
  file : sink'.file = sink.file ++ landed
  written : sink'.written = sink.written + landed.length
  expectedSize : sink'.expectedSize = sink.expectedSize

theorem Appends.refl (sink : DownloadSink) : Appends sink sink [] :=
  ⟨(List.append_nil _).symm, rfl, rfl⟩

variable {sink : DownloadSink}

theorem Appends.wrote (hcounted : sink.written = sink.file.length)
    (bytes : Bytes) :
    Appends sink (sink.wrote bytes) bytes where
  file := by
    show writeAt sink.file sink.written bytes = _
    rw [hcounted, writeAt_length]
  written := rfl
  expectedSize := rfl

theorem Appends.trans {sink' sink'' : DownloadSink} {landed landed' : Bytes}
    (h : Appends sink sink' landed) (h' : Appends sink' sink'' landed') :
    Appends sink sink'' (landed ++ landed') where
  file := by rw [h'.file, h.file, List.append_assoc]
  written := by
    rw [h'.written, h.written, List.length_append]
    omega
  expectedSize := h'.expectedSize.trans h.expectedSize

/-- The loop appends a part of the block, and all of it when it succeeds. -/
theorem writeFrom_appends (moment : Nat → SinkMoment) (fuel : Nat) :
    ∀ (t : Nat) (sink : DownloadSink) (status : TransferStatus) (rest : Bytes),
      rest.length ≤ fuel → sink.written = sink.file.length →
      ∃ landed, landed <+: rest
        ∧ Appends sink (writeFrom moment fuel t sink status rest).1 landed
        ∧ ((writeFrom moment fuel t sink status rest).2.2 = .ok () →
          landed = rest) := by
  induction fuel with
  | zero =>
    intro t sink status rest hfuel hcounted
    have hrest : rest = [] := List.eq_nil_of_length_eq_zero (by omega)
    exact ⟨[], List.nil_prefix, .refl sink, fun _ => hrest.symm⟩
  | succ fuel ih =>
    intro t sink status rest hfuel hcounted
    rw [writeFrom]
    by_cases hrest : rest = []
    · rw [if_pos hrest]
      exact ⟨[], List.nil_prefix, .refl sink, fun _ => hrest.symm⟩
    rw [if_neg hrest]
    rcases hcheck : (moment t).check with error | ⟨⟩
    · exact ⟨[], List.nil_prefix, .refl sink, fun hok => by cases hok⟩
    rcases hwrite : (moment t).write with error | count
    · exact ⟨[], List.nil_prefix, .refl sink, fun hok => by cases hok⟩
    dsimp only
    by_cases hzero : min count rest.length = 0
    · rw [if_pos hzero]
      exact ⟨[], List.nil_prefix, .refl sink, fun hok => by cases hok⟩
    · rw [if_neg hzero]
      have hwrote := Appends.wrote hcounted (rest.take count)
      have hcounted' : (sink.wrote (rest.take count)).written
          = (sink.wrote (rest.take count)).file.length := by
        rw [hwrote.written, hwrote.file, List.length_append, hcounted]
      have hshorter : (rest.drop count).length ≤ fuel := by
        rw [List.length_drop]
        omega
      obtain ⟨landed, hpart, happends, hall⟩ := ih (t + 1) _
        (status.progress (sink.wrote (rest.take count)).written)
        (rest.drop count) hshorter hcounted'
      refine ⟨rest.take count ++ landed, ?_, hwrote.trans happends, fun hok => ?_⟩
      · obtain ⟨behind, hbehind⟩ := hpart
        refine ⟨behind, ?_⟩
        rw [List.append_assoc, hbehind, List.take_append_drop]
      · rw [hall hok, List.take_append_drop]

/-- The loop ends with the block written where no check and no write fails. -/
theorem writeFrom_succeeds {moment : Nat → SinkMoment}
    (hgoes : ∀ t, (moment t).check = .ok ()
      ∧ ∃ count, count ≠ 0 ∧ (moment t).write = .ok count) (fuel : Nat) :
    ∀ (t : Nat) (sink : DownloadSink) (status : TransferStatus) (rest : Bytes),
      (writeFrom moment fuel t sink status rest).2.2 = .ok () := by
  induction fuel with
  | zero => exact fun t sink status rest => rfl
  | succ fuel ih =>
    intro t sink status rest
    obtain ⟨hcheck, count, hcount, hwrite⟩ := hgoes t
    rw [writeFrom]
    by_cases hrest : rest = []
    · rw [if_pos hrest]
    · rw [if_neg hrest, hcheck, hwrite]
      dsimp only
      have hlength : rest.length ≠ 0 := mt List.eq_nil_of_length_eq_zero hrest
      rw [if_neg (by omega)]
      exact ih _ _ _ _

/-- What a block comes to. -/
theorem writeBlock_fits (zstd : Bytes → ZstdStream) (call : SinkCall)
    (status : TransferStatus) (hcounted : sink.written = sink.file.length) :
    ∃ landed, Appends sink
        (sink.writeBlock zstd call.moment status call.data call.compressed).1 landed
      ∧ landed.length ≤ sink.expectedSize - sink.written
      ∧ SinkEntry.Fits zstd
        { call
          before := sink
          result := (sink.writeBlock zstd call.moment status call.data
            call.compressed).2.2
          landed } := by
  rw [writeBlock]
  rcases hcheck : (call.moment 0).check with error | ⟨⟩
  · refine ⟨[], .refl sink, Nat.zero_le _, ?_⟩
    exact
      { accepted := fun hok => by cases hok
        undecoded := fun _ _ => ⟨fun hok => (by cases hok), rfl⟩
        oversized := fun _ _ _ => ⟨fun hok => (by cases hok), rfl⟩
        part := fun _ _ => List.nil_prefix
        succeeds := fun _ _ _ hgoes => by
          have hpasses := (hgoes 0).1
          rw [hcheck] at hpasses
          cases hpasses }
  rcases hdecode : decodeBlock zstd call.data call.compressed with error | bytes
  · refine ⟨[], .refl sink, Nat.zero_le _, ?_⟩
    exact
      { accepted := fun hok => by cases hok
        undecoded := fun _ _ => ⟨fun hok => (by cases hok), rfl⟩
        oversized := fun _ _ _ => ⟨fun hok => (by cases hok), rfl⟩
        part := fun _ _ => List.nil_prefix
        succeeds := fun bytes hbytes _ _ => by
          rw [hdecode] at hbytes
          cases hbytes }
  dsimp only
  by_cases hlarge : bytes.length > sink.expectedSize - sink.written
  · rw [if_pos hlarge]
    refine ⟨[], .refl sink, Nat.zero_le _, ?_⟩
    exact
      { accepted := fun hok => by cases hok
        undecoded := fun _ _ => ⟨fun hok => (by cases hok), rfl⟩
        oversized := fun _ _ _ => ⟨fun hok => (by cases hok), rfl⟩
        part := fun _ _ => List.nil_prefix
        succeeds := fun bytes' hbytes hfits _ => by
          rw [hdecode] at hbytes
          cases hbytes
          exact absurd hlarge (Nat.not_lt.2 hfits) }
  · rw [if_neg hlarge]
    obtain ⟨landed, hpart, happends, hall⟩ :=
      writeFrom_appends call.moment bytes.length 1 sink status bytes le_rfl hcounted
    refine ⟨landed, happends, Nat.le_trans hpart.length_le (Nat.not_lt.1 hlarge), ?_⟩
    exact
      { accepted := fun hok => by
          rw [hall hok]
          exact hdecode
        undecoded := fun error hfails => by
          rw [hdecode] at hfails
          cases hfails
        oversized := fun bytes' hbytes hover => by
          rw [hdecode] at hbytes
          cases hbytes
          exact absurd hover hlarge
        part := fun bytes' hbytes => by
          rw [hdecode] at hbytes
          cases hbytes
          exact hpart
        succeeds := fun _ _ _ hgoes => writeFrom_succeeds hgoes _ _ _ _ _ }

/-- `complete` succeeds for the expected size, where nothing outside fails. -/
theorem complete_iff {moment : Nat → SinkMoment}
    (hcounted : sink.written = sink.file.length) :
    complete moment sink = .ok ()
      ↔ sink.written = sink.expectedSize
        ∧ (moment 0).check = .ok () ∧ (moment 1).metadata = .ok ()
        ∧ sink.modified ≤ maxTimestamp ∧ (moment 2).setTimes = .ok ()
        ∧ (moment 3).syncAll = .ok () ∧ (moment 4).check = .ok () := by
  rw [complete]
  rcases hcheck : (moment 0).check with error | ⟨⟩
  · exact ⟨fun hok => (by cases hok), fun hall => (by cases hall.2.1)⟩
  dsimp only
  by_cases hsize : sink.written ≠ sink.expectedSize
  · rw [if_pos hsize]
    exact ⟨fun hok => (by cases hok), fun hall => absurd hall.1 hsize⟩
  rw [if_neg hsize]
  rcases hmetadata : (moment 1).metadata with error | ⟨⟩
  · exact ⟨fun hok => (by cases hok), fun hall => (by cases hall.2.2.1)⟩
  dsimp only
  rw [not_not] at hsize
  rw [if_neg (by rw [← hcounted, hsize]; exact fun hother => hother rfl)]
  by_cases htime : sink.modified > maxTimestamp
  · rw [if_pos htime]
    exact ⟨fun hok => (by cases hok),
      fun hall => absurd hall.2.2.2.1 (Nat.not_le.2 htime)⟩
  rw [if_neg htime]
  rcases htimes : (moment 2).setTimes with error | ⟨⟩
  · exact ⟨fun hok => (by cases hok), fun hall => (by cases hall.2.2.2.2.1)⟩
  rcases hsync : (moment 3).syncAll with error | ⟨⟩
  · exact ⟨fun hok => (by cases hok), fun hall => (by cases hall.2.2.2.2.2.1)⟩
  exact ⟨fun hok => ⟨hsize, rfl, rfl, Nat.not_lt.1 htime, rfl, rfl, hok⟩,
    fun hall => hall.2.2.2.2.2.2⟩

end DownloadSink

-- ==================================== runs

theorem DownloadRun.Written.step {zstd : Bytes → ZstdStream} {run : DownloadRun}
    (h : run.Written zstd) (call : SinkCall) : (run.step zstd call).Written zstd := by
  obtain ⟨landed, happends, hroom, hfits⟩ :=
    DownloadSink.writeBlock_fits zstd call run.status h.counted
  have hlanded : (run.sink.writeBlock zstd call.moment run.status call.data
      call.compressed).1.file.drop run.sink.file.length = landed := by
    rw [happends.file, List.drop_left]
  have hbounded := h.bounded
  rw [DownloadRun.step]
  exact
    { bounded := by
        rw [happends.written, happends.expectedSize]
        omega
      counted := by
        rw [happends.written, happends.file, List.length_append, h.counted]
      file := by
        rw [List.map_append, List.flatten_append, ← h.file, happends.file]
        simp only [List.map_cons, List.map_nil, List.flatten_cons,
          List.flatten_nil, List.append_nil]
        rw [List.drop_left]
      fits := fun entry hentry => by
        rcases List.mem_append.1 hentry with hentry | hentry
        · exact h.fits entry hentry
        · rw [List.mem_singleton] at hentry
          rw [hentry, hlanded]
          exact hfits }

/-- In every run the file is what its calls added, within the expected size: an
accepted block, or a part of one whose writes broke off. What is complete has the
expected size, and is complete where nothing outside fails. -/
theorem download_written (zstd : Bytes → ZstdStream) (expectedSize modified : Nat)
    (status : TransferStatus) (calls : List SinkCall) :
    (exec (DownloadRun.step zstd) { sink := { expectedSize, modified }, status }
        calls).Written zstd
      ∧ ∀ moment, DownloadSink.complete moment
          (exec (DownloadRun.step zstd)
            { sink := { expectedSize, modified }, status } calls).sink = .ok ()
        ↔ (exec (DownloadRun.step zstd)
            { sink := { expectedSize, modified }, status } calls).sink.written
              = (exec (DownloadRun.step zstd)
                { sink := { expectedSize, modified }, status } calls).sink.expectedSize
          ∧ (moment 0).check = .ok () ∧ (moment 1).metadata = .ok ()
          ∧ (exec (DownloadRun.step zstd)
            { sink := { expectedSize, modified }, status } calls).sink.modified
              ≤ maxTimestamp
          ∧ (moment 2).setTimes = .ok () ∧ (moment 3).syncAll = .ok ()
          ∧ (moment 4).check = .ok () := by
  have hwritten := @exec_invariant _ _ (DownloadRun.step zstd)
    (DownloadRun.Written zstd) (fun _ call h => h.step call)
    { sink := { expectedSize, modified }, status } calls
    { bounded := Nat.zero_le _
      counted := rfl
      file := rfl
      fits := fun _ hentry => absurd hentry List.not_mem_nil }
  exact ⟨hwritten, fun _ => DownloadSink.complete_iff hwritten.counted⟩

/-- A block of four bytes: two are written, then the disk is full. -/
def blockBroken : SinkCall where
  data := [1, 2, 3, 4]
  compressed := false
  moment t :=
    if t = 1 then { write := .ok 2 } else { write := .error ⟨.other, "full"⟩ }

/-- The two bytes stay in the file, and a cancelled job is not complete with all
bytes written. -/
theorem not_download_written :
    (exec (DownloadRun.step fun _ => {})
        { sink := { expectedSize := 4, modified := 0 }
          status := { transferId := 1, totalBytes := 4 } } [blockBroken]).sink.file
      ≠ accepted (exec (DownloadRun.step fun _ => {})
        { sink := { expectedSize := 4, modified := 0 }
          status := { transferId := 1, totalBytes := 4 } } [blockBroken]).log
    ∧ ¬ (DownloadSink.complete (fun _ => { cancelled := true }) ⟨[], 0, 0, 0⟩
        = .ok ()
      ↔ (⟨[], 0, 0, 0⟩ : DownloadSink).written
        = (⟨[], 0, 0, 0⟩ : DownloadSink).expectedSize) := by
  constructor
  · decide +kernel
  · intro h
    have hcomplete := h.2 rfl
    cases hcomplete

end RemoteDesk.Files
