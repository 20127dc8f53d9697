/-
The upload pump (`pump_upload` in `file_transfer.rs`).

# The pump

The source is read into blocks of 64 KiB across short reads, each block
is handed to the sender under its index, and the job's progress follows.
What happens outside, at each call of the job, the file or the sender,
is a `Moment`; the pump consumes one after the other.

# Results

`sent_blocks` is the loop invariant: the blocks sent so far are the
first blocks of the source, and the progress is their length.
`pump_upload_blocks` reads it off every outcome, and says that the pump
does succeed when nothing goes wrong.
-/
import RemoteDesk.Files.TransferJob

namespace RemoteDesk.Files

-- ================================== source

/-- `UploadSource`: the size of a file is the one it was opened with,
`content` is what it holds. -/
inductive UploadSource
  | memory (data : Bytes)
  | file (size : Nat) (content : Bytes)
deriving DecidableEq, Repr

/-- What a call meets outside the pump. -/
structure Moment where
  cancelled : Bool := false
  epoch : Nat := 0
  env : CheckEnv := {}
  /-- How much a read of a file brings at most. -/
  read : Except IoError Nat := .ok 65536
  send : Except IoError Unit := .ok ()
  /-- The metadata of the file at the end. -/
  unchanged : Except IoError Unit := .ok ()

/-- `job.check()`. -/
def Moment.check (m : Moment) : Except IoError Unit :=
  checkTransfer m.cancelled m.epoch m.env

namespace UploadSource

def size : UploadSource → Nat
  | .memory data => data.length
  | .file size _ => size

/-- The bytes an upload is to send. -/
def bytes : UploadSource → Bytes
  | .memory data => data
  | .file size content => content.take size

/-- `read_at`, into a buffer of `n` bytes. -/
def readAt (source : UploadSource) (m : Moment) (offset n : Nat) :
    Except IoError Bytes :=
  match source with
  | .memory data => .ok ((data.drop offset).take n)
  | .file _ content =>
    m.read.map fun count => ((content.drop offset).take n).take count

/-- `validate_unchanged`. -/
def validateUnchanged (source : UploadSource) (m : Moment) :
    Except IoError Unit :=
  match source with
  | .memory _ => .ok ()
  | .file _ _ => m.unchanged

end UploadSource

-- ==================================== pump

def blockSize : Nat := 65536

/-- The inner loop: read until the block has `wanted` bytes. Every read
brings a byte or ends the loop, so `wanted` rounds are enough. -/
def fillBlock (source : UploadSource) (moment : Nat → Moment)
    (offset wanted : Nat) :
    Nat → Nat → Bytes → Except IoError Bytes × Nat
  | 0, t, buffer => (.ok buffer, t)
  | fuel + 1, t, buffer =>
    if buffer.length < wanted then
      match (moment t).check with
      | .error error => (.error error, t + 1)
      | .ok () =>
        match source.readAt (moment (t + 1))
            (offset + buffer.length) (wanted - buffer.length) with
        | .error error => (.error error, t + 2)
        | .ok bytes =>
          if bytes = [] then
            (.error ⟨.unexpectedEof, "upload source shortened"⟩,
              t + 2)
          else fillBlock source moment offset wanted fuel (t + 2)
            (buffer ++ bytes)
    else (.ok buffer, t)

/-- What a pump returns and has done: the blocks the sender took, the
block it refused, and the status of the job. -/
structure Upload where
  result : Except IoError Unit
  sent : List (Nat × Bytes)
  refused : Option (Nat × Bytes)
  status : TransferStatus

/-- Every block the sender was called with. -/
def Upload.handed (upload : Upload) : List (Nat × Bytes) :=
  upload.sent ++ upload.refused.toList

/-- After the loop. -/
def pumpDone (source : UploadSource) (moment : Nat → Moment) (t : Nat)
    (sent : List (Nat × Bytes)) (status : TransferStatus) : Upload :=
  { result := match (moment t).check with
      | .error error => .error error
      | .ok () => source.validateUnchanged (moment (t + 1))
    sent := sent, refused := none, status := status }

/-- The outer loop: every round sends a byte or ends the loop. -/
def pumpFrom (source : UploadSource) (moment : Nat → Moment) :
    Nat → Nat → Nat → List (Nat × Bytes) → TransferStatus → Upload
  | 0, t, _, sent, status => pumpDone source moment t sent status
  | fuel + 1, t, offset, sent, status =>
    if offset < source.size then
      match (moment t).check with
      | .error error => ⟨.error error, sent, none, status⟩
      | .ok () =>
        let wanted := min (source.size - offset) blockSize
        match fillBlock source moment offset wanted wanted (t + 1)
            [] with
        | (.error error, _) => ⟨.error error, sent, none, status⟩
        | (.ok block, t) =>
          let index := offset / blockSize
          if index ≥ 2 ^ 32 then
            ⟨.error ⟨.invalidInput,
              "file exceeds wire block range"⟩, sent, none, status⟩
          else match (moment t).send with
            | .error error =>
              ⟨.error error, sent, some (index, block), status⟩
            | .ok () =>
              pumpFrom source moment fuel (t + 1)
                (offset + block.length)
                (sent ++ [(index, block)])
                (status.progress (offset + block.length))
    else pumpDone source moment t sent status

/-- `pump_upload`. -/
def pumpUpload (source : UploadSource) (moment : Nat → Moment)
    (status : TransferStatus) : Upload :=
  pumpFrom source moment source.size 0 0 [] status

-- ================================== blocks

/-- Block `i` of some bytes. -/
def blockAt (bytes : Bytes) (i : Nat) : Nat × Bytes :=
  (i, (bytes.drop (blockSize * i)).take blockSize)

/-- The first `k` blocks. -/
def blocks (bytes : Bytes) (k : Nat) : List (Nat × Bytes) :=
  (List.range k).map (blockAt bytes)

theorem blocks_succ (bytes : Bytes) (k : Nat) :
    blocks bytes (k + 1) = blocks bytes k ++ [blockAt bytes k] := by
  unfold blocks
  rw [List.range_succ, List.map_append, List.map_singleton]

/-- The first blocks, put together, are the first bytes. -/
theorem flatten_blocks (bytes : Bytes) (k : Nat) :
    ((blocks bytes k).map (·.2)).flatten = bytes.take (blockSize * k) := by
  induction k with
  | zero => rw [Nat.mul_zero, List.take_zero]; rfl
  | succ k ih =>
    rw [blocks_succ, List.map_append, List.flatten_append, ih,
      List.map_singleton, List.flatten_singleton, Nat.mul_succ,
      List.take_add]
    rfl

/-- What is said of the blocks handed to a sender. -/
theorem blocks_numbered {bytes : Bytes} {k i : Nat} {block : Nat × Bytes}
    (hlength : blockSize * (k - 1) ≤ bytes.length)
    (h : (blocks bytes k)[i]? = some block) :
    block.1 = i ∧ (i + 1 < k → block.2.length = blockSize) := by
  unfold blocks at h
  rw [List.getElem?_map] at h
  obtain ⟨j, hj, rfl⟩ := Option.map_eq_some_iff.mp h
  obtain ⟨hlt, rfl⟩ := List.getElem?_eq_some_iff.mp hj
  rw [List.length_range] at hlt
  rw [List.getElem_range]
  refine ⟨rfl, fun hlast => ?_⟩
  have hle : blockSize * (i + 1) ≤ blockSize * (k - 1) :=
    Nat.mul_le_mul_left _ (by omega)
  rw [Nat.mul_succ] at hle
  show ((bytes.drop (blockSize * i)).take blockSize).length = blockSize
  rw [List.length_take, List.length_drop]
  omega

-- ================================= reading

variable {offset : Nat} {sent : List (Nat × Bytes)} {status : TransferStatus}

namespace UploadSource

theorem length_bytes_le (source : UploadSource) :
    source.bytes.length ≤ source.size := by
  cases source with
  | memory data => exact Nat.le_refl _
  | file size content =>
    unfold bytes UploadSource.size
    rw [List.length_take]
    exact Nat.min_le_left _ _

/-- A read inside the announced size brings the next bytes. -/
theorem readAt_ok {source : UploadSource} {m : Moment} {n : Nat} {read : Bytes}
    (hn : offset + n ≤ source.size) (h : source.readAt m offset n = .ok read) :
    read <+: source.bytes.drop offset ∧ read.length ≤ n := by
  cases source with
  | memory data =>
    cases h
    refine ⟨List.take_prefix _ _, ?_⟩
    rw [List.length_take]
    exact Nat.min_le_left _ _
  | file size content =>
    unfold readAt at h
    have hn : offset + n ≤ size := hn
    obtain ⟨count, -, hread⟩ : ∃ count, m.read = .ok count
        ∧ ((content.drop offset).take n).take count = read := by
      dsimp only at h
      cases hm : m.read with
      | error error =>
        rw [hm] at h
        cases h
      | ok count =>
        rw [hm] at h
        exact ⟨count, rfl, Except.ok.inj h⟩
    subst hread
    have hsame : (content.drop offset).take n
        = ((content.take size).drop offset).take n := by
      rw [List.drop_take, List.take_take, Nat.min_eq_left (by omega)]
    refine ⟨?_, ?_⟩
    · rw [hsame]
      exact (List.take_prefix _ _).trans (List.take_prefix _ _)
    · rw [List.length_take, List.length_take]
      omega

end UploadSource

/-- A filled block is the next `wanted` bytes of the source. -/
theorem fillBlock_ok {source : UploadSource} {moment : Nat → Moment}
    {wanted : Nat} (hsize : offset + wanted ≤ source.size) :
    ∀ {fuel t : Nat} {buffer block : Bytes} {t' : Nat},
      buffer <+: source.bytes.drop offset → buffer.length ≤ wanted →
      wanted ≤ buffer.length + fuel →
      fillBlock source moment offset wanted fuel t buffer
        = (.ok block, t') →
      block <+: source.bytes.drop offset ∧ block.length = wanted := by
  intro fuel
  induction fuel with
  | zero =>
    intro t buffer block t' hbuffer hle hfuel h
    unfold fillBlock at h
    cases h
    exact ⟨hbuffer, by omega⟩
  | succ fuel ih =>
    intro t buffer block t' hbuffer hle hfuel h
    unfold fillBlock at h
    by_cases hmore : buffer.length < wanted
    · rw [if_pos hmore] at h
      cases hcheck : (moment t).check with
      | error error =>
        rw [hcheck] at h
        cases h
      | ok u =>
      rw [hcheck] at h
      dsimp only at h
      cases hread : source.readAt (moment (t + 1))
          (offset + buffer.length) (wanted - buffer.length) with
      | error error =>
        rw [hread] at h
        cases h
      | ok read =>
      rw [hread] at h
      dsimp only at h
      by_cases hempty : read = []
      · rw [if_pos hempty] at h
        cases h
      rw [if_neg hempty] at h
      obtain ⟨hnext, hlength⟩ :=
        UploadSource.readAt_ok (by omega) hread
      have hpositive : 0 < read.length := List.length_pos_iff.mpr hempty
      refine ih ?_ ?_ ?_ h
      · obtain ⟨rest, hrest⟩ := hbuffer
        rw [← List.drop_drop, ← hrest, List.drop_left] at hnext
        obtain ⟨tail, rfl⟩ := hnext
        exact ⟨tail, by rw [List.append_assoc, hrest]⟩
      · rw [List.length_append]
        omega
      · rw [List.length_append]
        omega
    · rw [if_neg hmore] at h
      cases h
      exact ⟨hbuffer, by omega⟩

/-- Nothing goes wrong at this moment. -/
structure Moment.Quiet (m : Moment) : Prop where
  check : m.check = .ok ()
  read : ∃ count, 0 < count ∧ m.read = .ok count
  send : m.send = .ok ()
  unchanged : m.unchanged = .ok ()

/-- A quiet read of a source that has the bytes brings some. -/
theorem UploadSource.readAt_quiet {source : UploadSource} {m : Moment}
    (hm : m.Quiet) {n : Nat} (hn : 0 < n)
    (hoffset : offset < source.bytes.length) :
    ∃ read, source.readAt m offset n = .ok read ∧ read ≠ [] := by
  cases source with
  | memory data =>
    refine ⟨_, rfl, List.ne_nil_of_length_pos ?_⟩
    have hoffset : offset < data.length := hoffset
    rw [List.length_take, List.length_drop]
    omega
  | file size content =>
    obtain ⟨count, hcount, hread⟩ := hm.read
    refine ⟨((content.drop offset).take n).take count, ?_,
      List.ne_nil_of_length_pos ?_⟩
    · unfold UploadSource.readAt
      dsimp only
      rw [hread]
      rfl
    · have hoffset : offset < (content.take size).length := hoffset
      rw [List.length_take] at hoffset
      rw [List.length_take, List.length_take, List.length_drop]
      omega

theorem fillBlock_quiet {source : UploadSource} {moment : Nat → Moment}
    (hquiet : ∀ t, (moment t).Quiet) {wanted : Nat}
    (hbytes : offset + wanted ≤ source.bytes.length) :
    ∀ {fuel t : Nat} {buffer : Bytes},
      ∃ block t', fillBlock source moment offset wanted fuel t buffer
        = (.ok block, t') := by
  intro fuel
  induction fuel with
  | zero => exact fun {t buffer} => ⟨buffer, t, rfl⟩
  | succ fuel ih =>
    intro t buffer
    unfold fillBlock
    by_cases hmore : buffer.length < wanted
    · rw [if_pos hmore, (hquiet t).check]
      obtain ⟨read, hread, hne⟩ := UploadSource.readAt_quiet
        (hquiet (t + 1)) (show 0 < wanted - buffer.length by omega)
        (show offset + buffer.length < source.bytes.length by omega)
      dsimp only
      rw [hread]
      dsimp only
      rw [if_neg hne]
      exact ih
    · rw [if_neg hmore]
      exact ⟨buffer, t, rfl⟩

-- ==================================== loop

/-- What holds each time the loop looks at the offset. -/
structure Pumped (source : UploadSource) (offset k : Nat)
    (sent : List (Nat × Bytes)) (status : TransferStatus) : Prop where
  sent_eq : sent = blocks source.bytes k
  offset_eq : offset = min (blockSize * k) source.size
  available : offset ≤ source.bytes.length
  last : blockSize * (k - 1) ≤ source.size
  index : k ≤ 2 ^ 32
  running : status.state = .running
  total : status.totalBytes = 0 ∨ source.size ≤ status.totalBytes
  progress : status.transferredBytes = offset

variable {source : UploadSource} {moment : Nat → Moment}

/-- The bytes sent so far. -/
theorem Pumped.length_sent {k : Nat} (h : Pumped source offset k sent status) :
    ((sent.map (·.2)).flatten).length = offset := by
  have hle := source.length_bytes_le
  have hoffset := h.offset_eq
  have havailable := h.available
  rw [h.sent_eq, flatten_blocks, List.length_take]
  omega

theorem Pumped.last_le {k : Nat} (h : Pumped source offset k sent status) :
    blockSize * (k - 1) ≤ source.bytes.length := by
  have hoffset := h.offset_eq
  have hlast := h.last
  have havailable := h.available
  have hstep : blockSize * (k - 1) ≤ blockSize * k :=
    Nat.mul_le_mul_left _ (Nat.sub_le k 1)
  omega

/-- A filled block is the next block of the source. -/
theorem Pumped.block {k : Nat} (h : Pumped source offset k sent status)
    (hmore : offset < source.size) {t t' : Nat} {block : Bytes}
    (hfill : fillBlock source moment offset
      (min (source.size - offset) blockSize)
      (min (source.size - offset) blockSize) t [] = (.ok block, t')) :
    offset / blockSize = k ∧ (k, block) = blockAt source.bytes k
      ∧ block.length = min (source.size - offset) blockSize
      ∧ offset + block.length ≤ source.bytes.length := by
  have hpos : 0 < blockSize := by decide
  have hoffset : offset = blockSize * k := by
    have := h.offset_eq
    omega
  have hle := source.length_bytes_le
  obtain ⟨hfilled, hlength⟩ := fillBlock_ok (by omega) List.nil_prefix
    (Nat.zero_le _) (by simp) hfill
  have htake := List.prefix_iff_eq_take.mp hfilled
  have havailable := hfilled.length_le
  rw [List.length_drop] at havailable
  have hnonempty : 0 < block.length := by omega
  refine ⟨?_, ?_, hlength, by omega⟩
  · rw [hoffset, Nat.mul_div_cancel_left _ hpos]
  · unfold blockAt
    rw [← hoffset]
    refine Prod.ext rfl ?_
    rw [htake, hlength]
    dsimp only
    by_cases hfull : blockSize ≤ source.size - offset
    · rw [Nat.min_eq_right hfull]
    · rw [Nat.min_eq_left (by omega), List.take_of_length_le,
        List.take_of_length_le]
      · rw [List.length_drop]
        omega
      · rw [List.length_drop]
        omega

/-- Sending a block keeps the loop's invariant. -/
theorem Pumped.next {k : Nat} (h : Pumped source offset k sent status)
    (hmore : offset < source.size) {block : Bytes}
    (hblock : (k, block) = blockAt source.bytes k)
    (hlength : block.length = min (source.size - offset) blockSize)
    (havailable : offset + block.length ≤ source.bytes.length)
    (hindex : k < 2 ^ 32) :
    Pumped source (offset + block.length) (k + 1)
      (sent ++ [(k, block)]) (status.progress (offset + block.length)) := by
  have hoffset := h.offset_eq
  have hle := source.length_bytes_le
  constructor
  · rw [h.sent_eq, hblock, blocks_succ]
  · rw [Nat.mul_succ]
    omega
  · exact havailable
  · rw [Nat.add_sub_cancel]
    omega
  · exact hindex
  · unfold TransferStatus.progress
    split <;> exact h.running
  · unfold TransferStatus.progress
    split <;> exact h.total
  · unfold TransferStatus.progress
    rw [if_pos h.running]
    dsimp only
    have htotal := h.total
    split
    · omega
    · rfl

/-- What every outcome of a pump satisfies. -/
structure Upload.Sound (source : UploadSource) (upload : Upload) :
    Prop where
  handed : ∃ k, upload.handed = blocks source.bytes k ∧ k ≤ 2 ^ 32
    ∧ blockSize * (k - 1) ≤ source.bytes.length
  whole : upload.result = .ok () → upload.refused = none
    ∧ (upload.sent.map (·.2)).flatten = source.bytes
    ∧ source.bytes.length = source.size
  progress : upload.status.transferredBytes
    = ((upload.sent.map (·.2)).flatten).length

/-- An outcome without a refused block. -/
theorem Pumped.sound {k : Nat} (h : Pumped source offset k sent status)
    {result : Except IoError Unit}
    (hresult : result = .ok () → ¬ offset < source.size) :
    Upload.Sound source ⟨result, sent, none, status⟩ := by
  have hle := source.length_bytes_le
  refine ⟨⟨k, ?_, h.index, h.last_le⟩, fun hok => ⟨rfl, ?_, ?_⟩,
    h.progress.trans h.length_sent.symm⟩
  · unfold Upload.handed
    rw [Option.toList_none, List.append_nil, h.sent_eq]
  · have hdone := hresult hok
    have hoffset := h.offset_eq
    have havailable := h.available
    rw [h.sent_eq, flatten_blocks, List.take_of_length_le (by omega)]
  · have hdone := hresult hok
    have havailable := h.available
    omega

/-- The loop invariant, to the end of the pump. -/
theorem pumpFrom_sound :
    ∀ {fuel t offset k : Nat} {sent : List (Nat × Bytes)}
      {status : TransferStatus}, Pumped source offset k sent status →
      source.size ≤ offset + fuel →
      (pumpFrom source moment fuel t offset sent status).Sound source := by
  intro fuel
  induction fuel with
  | zero =>
    intro t offset k sent status h hfuel
    exact h.sound fun _ => by omega
  | succ fuel ih =>
    intro t offset k sent status h hfuel
    unfold pumpFrom
    by_cases hmore : offset < source.size
    · rw [if_pos hmore]
      cases hcheck : (moment t).check with
      | error error => exact h.sound nofun
      | ok u =>
      dsimp only
      cases hfill : fillBlock source moment offset
          (min (source.size - offset) blockSize)
          (min (source.size - offset) blockSize) (t + 1) [] with
      | mk filled t' =>
      cases filled with
      | error error => exact h.sound nofun
      | ok block =>
      obtain ⟨hindex, hblock, hlength, havailable⟩ :=
        h.block hmore hfill
      dsimp only
      rw [hindex]
      by_cases hbig : k ≥ 2 ^ 32
      · rw [if_pos hbig]
        exact h.sound nofun
      rw [if_neg hbig]
      have hnext := h.next hmore hblock hlength havailable (by omega)
      cases hsend : (moment t').send with
      | error error =>
        refine ⟨⟨k + 1, ?_, by omega, hnext.last_le⟩, nofun,
          h.progress.trans h.length_sent.symm⟩
        unfold Upload.handed
        rw [Option.toList_some, h.sent_eq, hblock, blocks_succ]
      | ok u =>
        have hpositive : 0 < block.length := by
          have hpos : 0 < blockSize := by decide
          omega
        exact ih hnext (by omega)
    · rw [if_neg hmore]
      exact h.sound fun _ => hmore

/-- When nothing goes wrong the pump succeeds. -/
theorem pumpFrom_quiet (hquiet : ∀ t, (moment t).Quiet)
    (hsize : source.size ≤ 2 ^ 32 * blockSize)
    (hbytes : source.bytes.length = source.size) :
    ∀ {fuel t offset k : Nat} {sent : List (Nat × Bytes)}
      {status : TransferStatus}, Pumped source offset k sent status →
      (pumpFrom source moment fuel t offset sent status).result
        = .ok () := by
  have hdone : ∀ t sent status,
      (pumpDone source moment t sent status).result = .ok () := by
    intro t sent status
    unfold pumpDone UploadSource.validateUnchanged
    rw [(hquiet t).check]
    cases source with
    | memory data => rfl
    | file size content => exact (hquiet (t + 1)).unchanged
  intro fuel
  induction fuel with
  | zero => exact fun _ => hdone _ _ _
  | succ fuel ih =>
    intro t offset k sent status h
    unfold pumpFrom
    by_cases hmore : offset < source.size
    · rw [if_pos hmore, (hquiet t).check]
      dsimp only
      obtain ⟨block, t', hfill⟩ : ∃ block t', fillBlock source moment
          offset (min (source.size - offset) blockSize)
          (min (source.size - offset) blockSize) (t + 1) []
            = (.ok block, t') :=
        fillBlock_quiet hquiet (by omega)
      obtain ⟨hindex, hblock, hlength, havailable⟩ :=
        h.block hmore hfill
      rw [hfill]
      dsimp only
      have hsmall : k < 2 ^ 32 := by
        have hoffset := h.offset_eq
        have hlt : blockSize * k < blockSize * 2 ^ 32 := by
          rw [Nat.mul_comm blockSize (2 ^ 32)]
          omega
        exact Nat.lt_of_mul_lt_mul_left hlt
      rw [hindex, if_neg (by omega), (hquiet t').send]
      exact ih (h.next hmore hblock hlength havailable hsmall)
    · rw [if_neg hmore]
      exact hdone _ _ _

-- ==================================== main

/-- Whatever happens outside: the blocks handed to the sender are
numbered from zero without wrapping, all but the last are full, and
together they are a prefix of the source; a pump that succeeds has sent
the whole source; the recorded progress is what was sent. And a source
within the wire's block range does get through when nothing goes
wrong. -/
theorem pump_upload_blocks (source : UploadSource)
    (moment : Nat → Moment) (status : TransferStatus)
    (hrunning : status.state = .running)
    (hfresh : status.transferredBytes = 0)
    (htotal : status.totalBytes = source.size) :
    (∀ i block, (pumpUpload source moment status).handed[i]?
        = some block →
      block.1 = i ∧ i < 2 ^ 32
        ∧ (i + 1 < (pumpUpload source moment status).handed.length →
          block.2.length = blockSize))
    ∧ ((pumpUpload source moment status).handed.map (·.2)).flatten
        <+: source.bytes
    ∧ ((pumpUpload source moment status).result = .ok () →
      (pumpUpload source moment status).refused = none
        ∧ ((pumpUpload source moment status).sent.map (·.2)).flatten
          = source.bytes
        ∧ source.bytes.length = source.size)
    ∧ (pumpUpload source moment status).status.transferredBytes
      = (((pumpUpload source moment status).sent.map (·.2)).flatten).length
    ∧ (source.size ≤ 2 ^ 32 * blockSize →
      source.bytes.length = source.size → (∀ t, (moment t).Quiet) →
      (pumpUpload source moment status).result = .ok ()) := by
  have hstart : Pumped source 0 0 [] status := by
    refine ⟨rfl, ?_, Nat.zero_le _, ?_, Nat.zero_le _, hrunning,
      .inr htotal.ge, hfresh⟩
    · rw [Nat.mul_zero, Nat.zero_min]
    · exact Nat.zero_le _
  have hsound : (pumpUpload source moment status).Sound source :=
    pumpFrom_sound hstart (Nat.zero_add _).ge
  obtain ⟨k, hhanded, hk, hlast⟩ := hsound.handed
  refine ⟨?_, ?_, hsound.whole, hsound.progress,
    fun hsize hbytes hquiet => pumpFrom_quiet hquiet hsize hbytes hstart⟩
  · intro i block h
    rw [hhanded] at h ⊢
    obtain ⟨hindex, hfull⟩ := blocks_numbered hlast h
    have hlength : (blocks source.bytes k).length = k := by
      unfold blocks
      rw [List.length_map, List.length_range]
    have hlt := (List.getElem?_eq_some_iff.mp h).1
    rw [hlength] at hlt ⊢
    exact ⟨hindex, by omega, hfull⟩
  · rw [hhanded, flatten_blocks]
    exact List.take_prefix _ _

/-- Five bytes of memory. -/
theorem pump_upload_blocks_memory :
    (pumpUpload (.memory [1, 2, 3, 4, 5]) (fun _ => {})
        { transferId := 1, totalBytes := 5 }).result = .ok () :=
  (pump_upload_blocks (.memory [1, 2, 3, 4, 5]) (fun _ => {})
    { transferId := 1, totalBytes := 5 } rfl rfl rfl).2.2.2.2
    (by decide) rfl fun _ => ⟨rfl, ⟨65536, by decide, rfl⟩, rfl, rfl⟩

end RemoteDesk.Files
