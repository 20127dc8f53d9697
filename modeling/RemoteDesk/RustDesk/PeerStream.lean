/-
The byte stream of a peer behind its pump (src/peer_stream.rs).

`pump_kcp_reads` queues the chunks it receives, `read` copies from the front
of the queue, over as many chunks as it takes. The queue stands for the bytes
`pending`: what was returned, and then what is pending, is what was pushed
(`Fifo.order`). `read` expects a chunk while the byte count is positive and
slices it; a failed expectation, a slice out of range and a loop that makes no
progress are all `none` here, and none of them happens (`peer_stream_fifo`).

The pump stops at the capacity, so the count stays far from the end of
`usize`, where it would saturate. A lock is taken for a step as a whole; a
reader that waits is woken to try again, or times out.
-/
import RemoteDesk.Lib.Runs

namespace RemoteDesk.RustDesk

open Lib

namespace PeerStream

def KCP_INBOUND_CAPACITY : Nat := 32 * 1024 * 1024
def KCP_IO_CHUNK_SIZE : Nat := 32 * 1024
def usizeMax : Nat := 2 ^ 64 - 1

/-- `ε` is the type of stored errors. -/
structure InboundState (ε : Type) where
  chunks : List (List UInt8) := []
  frontOffset : Nat := 0
  byteLen : Nat := 0
  closed : Bool := false
  error : Option ε := none

variable {ε : Type}

/-- The copy of `read`, until `count` bytes are `copied`. -/
def copyLoop : Nat → InboundState ε → Nat → List UInt8 →
    Option (InboundState ε × List UInt8)
  | 0, s, count, copied => if copied.length < count then none else some (s, copied)
  | fuel + 1, s, count, copied =>
    if copied.length < count then
      match s.chunks with
      | [] => none
      | chunk :: rest =>
        let available := chunk.length - s.frontOffset
        let take := min available (count - copied.length)
        let stop := s.frontOffset + take
        if chunk.length < stop ∨ s.byteLen < take then none
        else
          let s := { s with frontOffset := stop, byteLen := s.byteLen - take }
          let out := copied ++ (chunk.drop (stop - take)).take take
          if stop = chunk.length then
            copyLoop fuel { s with chunks := rest, frontOffset := 0 } count out
          else copyLoop fuel s count out
    else some (s, copied)

inductive ReadOutcome (ε : Type)
  | returned (bytes : List UInt8)
  | eof
  | failed (error : ε)
  | waits

def ReadOutcome.bytes : ReadOutcome ε → List UInt8
  | .returned bytes => bytes
  | .eof | .failed _ | .waits => []

/-- What `read` does with the lock held. -/
def read (s : InboundState ε) (size : Nat) :
    Option (InboundState ε × ReadOutcome ε) :=
  if size = 0 then some (s, .returned [])
  else if 0 < s.byteLen then
    (copyLoop (s.chunks.length + 1) s (min size s.byteLen) []).map
      fun copied => (copied.1, .returned copied.2)
  else if s.closed then
    match s.error with
    | some error => some (s, .failed error)
    | none => some (s, .eof)
  else some (s, .waits)

def push (s : InboundState ε) (chunk : List UInt8) : InboundState ε :=
  { s with chunks := s.chunks ++ [chunk]
           byteLen := min (s.byteLen + chunk.length) usizeMax }

/-- The locked part of `KcpShared::finish`. -/
def finish (s : InboundState ε) (error : Option ε) : InboundState ε :=
  { s with error := s.error.or error, closed := true }

/-- Where the pump stands in its loop. -/
inductive Pump
  | checking | reading | ended
  deriving DecidableEq

structure Stream (ε : Type) where
  inbound : InboundState ε := {}
  /-- `KcpShared::closed`. -/
  closed : Bool := false
  pump : Pump := .checking
  /-- Every byte pushed, and every byte returned by a read. -/
  pushed : List UInt8 := []
  returned : List UInt8 := []

inductive Op (ε : Type)
  /-- The pump looks at the capacity, at first or woken up. -/
  | check
  /-- What the pump receives; nothing is the end of the peer's stream. -/
  | arrive (bytes : List UInt8)
  | pumpFails
  /-- `finish` stores the flag before it takes the lock. -/
  | storeClosed
  | finish (error : Option ε)
  | read (size : Nat)

def step (s : Stream ε) : Op ε → Option (Stream ε)
  | .check =>
    if s.pump ≠ .checking then some s
    else if KCP_INBOUND_CAPACITY ≤ s.inbound.byteLen ∧ s.inbound.closed = false
      then some s
    else if s.closed then some { s with pump := .ended }
    else some { s with pump := .reading }
  | .arrive bytes =>
    if s.pump ≠ .reading then some s
    else
      -- the buffer of the pump takes no more
      let chunk := bytes.take KCP_IO_CHUNK_SIZE
      if chunk = [] then some { s with pump := .ended }
      else some { s with inbound := push s.inbound chunk, pump := .checking
                         pushed := s.pushed ++ chunk }
  | .pumpFails => some { s with pump := .ended }
  | .storeClosed => some { s with closed := true }
  | .finish error =>
    if s.closed then some { s with inbound := finish s.inbound error }
    else some s
  | .read size =>
    (read s.inbound size).map fun r =>
      { s with inbound := r.1, returned := s.returned ++ r.2.bytes }

-- ================================= copying

/-- The bytes the queue stands for. -/
def pending (s : InboundState ε) : List UInt8 :=
  s.chunks.flatten.drop s.frontOffset

/-- The count and the offset agree with the queue. -/
structure Held (s : InboundState ε) : Prop where
  offset : s.frontOffset ≤ (s.chunks.headD []).length
  bytes : s.byteLen = (pending s).length

variable {s : InboundState ε}

theorem copyLoop_done {fuel count : Nat} {copied : List UInt8}
    (h : count ≤ copied.length) :
    copyLoop fuel s count copied = some (s, copied) := by
  cases fuel with
  | zero => rw [copyLoop, if_neg (by omega)]
  | succ fuel => rw [copyLoop, if_neg (by omega)]

/-- What a copy leaves. -/
structure Copied (s s' : InboundState ε) (n : Nat) : Prop where
  held : Held s'
  rest : pending s' = (pending s).drop n
  closed : s'.closed = s.closed

theorem copyLoop_eq {fuel : Nat} :
    ∀ {s : InboundState ε} {count : Nat} {copied : List UInt8},
      Held s → s.chunks.length ≤ fuel → copied.length ≤ count →
      count - copied.length ≤ s.byteLen →
      ∃ s', copyLoop fuel s count copied
          = some (s', copied ++ (pending s).take (count - copied.length))
        ∧ Copied s s' (count - copied.length) := by
  induction fuel with
  | zero =>
    intro s count copied hs hfuel hle hcount
    have hnil : s.chunks = [] := List.length_eq_zero_iff.mp (by omega)
    have hzero : count - copied.length = 0 := by
      have hbytes := hs.bytes
      rw [pending, hnil] at hbytes
      simp at hbytes
      omega
    refine ⟨s, ?_, hs, ?_, rfl⟩
    · rw [copyLoop_done (by omega), hzero]
      simp
    · rw [hzero, List.drop_zero]
  | succ fuel ih =>
    intro s count copied hs hfuel hle hcount
    by_cases hlt : copied.length < count
    swap
    · have hzero : count - copied.length = 0 := by omega
      refine ⟨s, ?_, hs, ?_, rfl⟩
      · rw [copyLoop_done (by omega), hzero]
        simp
      · rw [hzero, List.drop_zero]
    rw [copyLoop, if_pos hlt]
    have hbytes := hs.bytes
    have hoffset := hs.offset
    unfold pending at hbytes
    cases hchunks : s.chunks with
    | nil =>
      rw [hchunks] at hbytes
      simp at hbytes
      omega
    | cons chunk rest =>
      rw [hchunks] at hbytes hoffset hfuel
      rw [List.headD_cons] at hoffset
      rw [List.length_cons] at hfuel
      have hpending : pending s = chunk.drop s.frontOffset ++ rest.flatten := by
        rw [pending, hchunks, List.flatten_cons,
          List.drop_append_of_le_length hoffset]
      rw [List.flatten_cons, List.drop_append_of_le_length hoffset,
        List.length_append, List.length_drop] at hbytes
      obtain ⟨n, hn⟩ : ∃ n, n = count - copied.length := ⟨_, rfl⟩
      dsimp only
      rw [← hn, Nat.add_sub_cancel]
      rw [← hn] at hcount
      by_cases hpop : chunk.length - s.frontOffset ≤ n
      · -- the chunk is used up
        have hmin : min (chunk.length - s.frontOffset) n
            = chunk.length - s.frontOffset := Nat.min_eq_left hpop
        have hstop : s.frontOffset + (chunk.length - s.frontOffset)
            = chunk.length := by omega
        have htaken : (chunk.drop s.frontOffset).take
            (chunk.length - s.frontOffset) = chunk.drop s.frontOffset :=
          List.take_of_length_le (by rw [List.length_drop])
        rw [hmin, hstop, if_neg (by omega), if_pos rfl, htaken]
        obtain ⟨d, hd⟩ : ∃ d, d = chunk.drop s.frontOffset := ⟨_, rfl⟩
        have hdlen : d.length = chunk.length - s.frontOffset := by
          rw [hd, List.length_drop]
        rw [← hd, ← hdlen]
        rw [← hd] at hpending
        rw [← hdlen] at hpop hbytes
        let popped : InboundState ε :=
          { s with frontOffset := 0, byteLen := s.byteLen - d.length
                   chunks := rest }
        have hpopped : pending popped = rest.flatten := List.drop_zero
        have hheld : Held popped := by
          refine ⟨Nat.zero_le _, ?_⟩
          show s.byteLen - d.length = (pending popped).length
          rw [hpopped]
          omega
        have hleft : count - (copied ++ d).length = n - d.length := by
          rw [List.length_append]
          omega
        have hroom : count - (copied ++ d).length ≤ popped.byteLen := by
          show _ ≤ s.byteLen - d.length
          omega
        obtain ⟨s', hrun, hcopied⟩ := ih hheld (Nat.le_of_succ_le_succ hfuel)
          (by rw [List.length_append]; omega) hroom
        rw [hleft, hpopped] at hrun
        refine ⟨s', ?_, hcopied.held, ?_, hcopied.closed⟩
        · rw [hrun, hpending, List.take_append, List.take_of_length_le hpop,
            List.append_assoc]
        · rw [hcopied.rest, hleft, hpopped, hpending, List.drop_append,
            List.drop_of_length_le hpop, List.nil_append]
      · -- it is not, so the copy is done
        have hmin : min (chunk.length - s.frontOffset) n = n :=
          Nat.min_eq_right (by omega)
        rw [hmin, if_neg (by omega), if_neg (by omega), copyLoop_done]
        · refine ⟨{ s with chunks := chunk :: rest
                           frontOffset := s.frontOffset + n
                           byteLen := s.byteLen - n }, ?_, ⟨?_, ?_⟩, ?_, rfl⟩
          · rw [hpending, List.take_append_of_le_length
              (by rw [List.length_drop]; omega)]
          · show s.frontOffset + n ≤ chunk.length
            omega
          · show s.byteLen - n
              = ((chunk :: rest).flatten.drop (s.frontOffset + n)).length
            rw [List.length_drop, List.flatten_cons, List.length_append]
            omega
          · show (chunk :: rest).flatten.drop (s.frontOffset + n) = _
            rw [pending, hchunks, List.drop_drop]
        · rw [List.length_append, List.length_take, List.length_drop]
          omega

/-- What a read finds and leaves. -/
structure ReadHolds (s s' : InboundState ε) (outcome : ReadOutcome ε) :
    Prop where
  held : Held s'
  closed : s'.closed = s.closed
  bytes : outcome.bytes ++ pending s' = pending s
  last : outcome = .eof ∨ (∃ error, outcome = .failed error) → pending s = []

theorem read_holds (hs : Held s) (size : Nat) :
    ∃ s' outcome, read s size = some (s', outcome)
      ∧ ReadHolds s s' outcome := by
  unfold read
  by_cases hsize : size = 0
  · rw [if_pos hsize]
    exact ⟨s, _, rfl, hs, rfl, rfl, fun h => by simp at h⟩
  rw [if_neg hsize]
  by_cases hbytes : 0 < s.byteLen
  · rw [if_pos hbytes]
    have hle : min size s.byteLen - ([] : List UInt8).length ≤ s.byteLen :=
      Nat.min_le_right _ _
    obtain ⟨s', hrun, hcopied⟩ := copyLoop_eq hs
      (Nat.le_succ s.chunks.length) (Nat.zero_le (min size s.byteLen)) hle
    refine ⟨s', _, by rw [hrun]; rfl, hcopied.held, hcopied.closed, ?_,
      fun h => by simp at h⟩
    show [] ++ _ ++ pending s' = pending s
    rw [hcopied.rest, List.nil_append, List.take_append_drop]
  rw [if_neg hbytes]
  have hnil : pending s = [] := by
    apply List.length_eq_zero_iff.mp
    rw [← hs.bytes]
    omega
  by_cases hclosed : s.closed = true
  · rw [if_pos hclosed]
    cases s.error with
    | none => exact ⟨s, _, rfl, hs, rfl, rfl, fun _ => hnil⟩
    | some error => exact ⟨s, _, rfl, hs, rfl, rfl, fun _ => hnil⟩
  · rw [if_neg hclosed]
    exact ⟨s, _, rfl, hs, rfl, rfl, fun _ => hnil⟩

theorem pending_push (hs : Held s) (chunk : List UInt8) :
    pending (push s chunk) = pending s ++ chunk := by
  show (s.chunks ++ [chunk]).flatten.drop s.frontOffset = _
  have hle : s.frontOffset ≤ s.chunks.flatten.length := by
    have hoffset := hs.offset
    cases hchunks : s.chunks with
    | nil =>
      rw [hchunks] at hoffset
      exact hoffset
    | cons first rest =>
      rw [hchunks, List.headD_cons] at hoffset
      rw [List.flatten_cons, List.length_append]
      omega
  rw [List.flatten_append, List.flatten_singleton,
    List.drop_append_of_le_length hle, pending]

/-- Short of the end of `usize` nothing saturates. -/
theorem Held.push (hs : Held s) {chunk : List UInt8}
    (h : s.byteLen + chunk.length ≤ usizeMax) : Held (push s chunk) := by
  refine ⟨?_, ?_⟩
  · have hoffset := hs.offset
    show s.frontOffset ≤ ((s.chunks ++ [chunk]).headD []).length
    cases hchunks : s.chunks with
    | nil =>
      rw [hchunks] at hoffset
      exact hoffset.trans (Nat.zero_le _)
    | cons first rest =>
      rw [hchunks] at hoffset
      exact hoffset
  · rw [pending_push hs, List.length_append, ← hs.bytes]
    exact Nat.min_eq_left h

-- ==================================== runs

/-- What holds of a stream between its steps. -/
structure Flows (s : Stream ε) : Prop where
  held : Held s.inbound
  order : s.returned ++ pending s.inbound = s.pushed
  /-- The flag is stored before the state is closed. -/
  flagged : s.inbound.closed = true → s.closed = true
  bounded : s.inbound.byteLen ≤ KCP_INBOUND_CAPACITY + KCP_IO_CHUNK_SIZE
  room : s.pump = .reading → s.inbound.byteLen < KCP_INBOUND_CAPACITY

theorem Flows.arrive {s : Stream ε} (h : Flows s) (bytes : List UInt8) :
    ∃ s', step s (.arrive bytes) = some s' ∧ Flows s' := by
  dsimp only [step]
  by_cases hpump : s.pump = .reading
  swap
  · exact ⟨s, if_pos hpump, h⟩
  rw [if_neg (not_not.mpr hpump)]
  by_cases hnil : bytes.take KCP_IO_CHUNK_SIZE = []
  · rw [if_pos hnil]
    exact ⟨_, rfl, h.held, h.order, h.flagged, h.bounded, fun hp => by cases hp⟩
  rw [if_neg hnil]
  have hroom := h.room hpump
  have hlen : (bytes.take KCP_IO_CHUNK_SIZE).length ≤ KCP_IO_CHUNK_SIZE :=
    List.length_take_le _ _
  have hmax : s.inbound.byteLen + (bytes.take KCP_IO_CHUNK_SIZE).length
      ≤ usizeMax := by
    have hcap : KCP_INBOUND_CAPACITY + KCP_IO_CHUNK_SIZE ≤ usizeMax := by decide
    omega
  refine ⟨_, rfl, h.held.push hmax, ?_, h.flagged, ?_, fun hp => by cases hp⟩
  · rw [pending_push h.held, ← List.append_assoc, h.order]
  · show min _ usizeMax ≤ _
    omega

theorem Flows.read {s : Stream ε} (h : Flows s) (size : Nat) :
    ∃ s', step s (.read size) = some s' ∧ Flows s' := by
  obtain ⟨inbound, outcome, hread, hholds⟩ := read_holds h.held size
  have hle : inbound.byteLen ≤ s.inbound.byteLen := by
    rw [hholds.held.bytes, h.held.bytes, ← hholds.bytes, List.length_append]
    omega
  refine ⟨{ s with inbound, returned := s.returned ++ outcome.bytes }, ?_,
    hholds.held, ?_, fun hc => h.flagged (hholds.closed ▸ hc),
    hle.trans h.bounded, fun hp => hle.trans_lt (h.room hp)⟩
  · dsimp only [step]
    rw [hread]
    rfl
  · show s.returned ++ outcome.bytes ++ pending inbound = s.pushed
    rw [List.append_assoc, hholds.bytes, h.order]

theorem Flows.step {s : Stream ε} (h : Flows s) (op : Op ε) :
    ∃ s', step s op = some s' ∧ Flows s' := by
  cases op with
  | arrive bytes => exact h.arrive bytes
  | read size => exact h.read size
  | check =>
    dsimp only [PeerStream.step]
    split_ifs with hpump hfull hflag
    · exact ⟨s, rfl, h⟩
    · exact ⟨s, rfl, h⟩
    · exact ⟨_, rfl, h.held, h.order, h.flagged, h.bounded, fun hp => by cases hp⟩
    · refine ⟨_, rfl, h.held, h.order, h.flagged, h.bounded, fun _ => ?_⟩
      show s.inbound.byteLen < KCP_INBOUND_CAPACITY
      by_contra hle
      cases hclosed : s.inbound.closed with
      | false => exact hfull ⟨not_lt.mp hle, hclosed⟩
      | true => exact hflag (h.flagged hclosed)
  | pumpFails =>
    exact ⟨_, rfl, h.held, h.order, h.flagged, h.bounded, fun hp => by cases hp⟩
  | storeClosed =>
    exact ⟨_, rfl, h.held, h.order, fun _ => rfl, h.bounded, h.room⟩
  | finish error =>
    dsimp only [PeerStream.step]
    split_ifs with hflag
    · exact ⟨_, rfl, ⟨h.held.offset, h.held.bytes⟩, h.order, fun _ => hflag,
        h.bounded, h.room⟩
    · exact ⟨s, rfl, h⟩

/-- What a stream that is read says of its bytes. -/
structure Fifo (s : Stream ε) : Prop where
  /-- What was returned is the beginning of what was pushed. -/
  order : s.returned <+: s.pushed
  /-- The count is that of the queue behind its offset. -/
  count : s.inbound.byteLen + s.inbound.frontOffset
    = (s.inbound.chunks.map List.length).sum
  /-- A read finds the chunks it expects, and reports an end only when nothing
  pushed is left. -/
  reads : ∀ size, ∃ s' outcome, read s.inbound size = some (s', outcome)
    ∧ ((outcome = .eof ∨ ∃ error, outcome = .failed error) →
      s.returned = s.pushed)

theorem Flows.fifo {s : Stream ε} (h : Flows s) : Fifo s := by
  refine ⟨⟨_, h.order⟩, ?_, fun size => ?_⟩
  · have hbytes := h.held.bytes
    have hoffset := h.held.offset
    rw [pending, List.length_drop, List.length_flatten] at hbytes
    have hle : s.inbound.frontOffset
        ≤ (s.inbound.chunks.map List.length).sum := by
      cases hchunks : s.inbound.chunks with
      | nil =>
        rw [hchunks] at hoffset
        exact hoffset
      | cons chunk rest =>
        rw [hchunks, List.headD_cons] at hoffset
        rw [List.map_cons, List.sum_cons]
        omega
    omega
  · obtain ⟨s', outcome, hread, hholds⟩ := read_holds h.held size
    refine ⟨s', outcome, hread, fun hend => ?_⟩
    have horder := h.order
    rwa [hholds.last hend, List.append_nil] at horder

end PeerStream

end RemoteDesk.RustDesk
