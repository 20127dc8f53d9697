/-
The answer to a security negotiation, put together from the network
(cpp/rdp/rdp_negotiation_parser.h).

`parseRdpNegotiationResponse` reads one answer; `RdpTpktAccumulator` collects
the chunks it arrives in and refuses what runs past the length the header
declares. The two check that length apart from each other, and agree: however
an answer is cut, collecting and parsing it says what parsing it at once says
(`negotiation_reassembles`), up to the text that explains an invalid one. A
refusal is recorded for good, and whatever follows would not have helped: an
answer longer than its header declares stays so (`TooLong.append`).

A chunk is what `data` and `size` span; the null pointer spans no chunk.
-/
import RemoteDesk.Lib.LittleEndian

namespace RemoteDesk.Rdp.Negotiation

open Lib

def kTpktVersion : UInt8 := 0x03
def kX224ConnectionConfirm : UInt8 := 0xD0
def kRdpNegResponse : UInt8 := 0x02
def kRdpNegFailure : UInt8 := 0x03

inductive ParseStatus
  | needMoreData | complete | invalid
  deriving DecidableEq

inductive ResponseKind
  | invalid | noNegotiationData | negotiationResponse | negotiationFailure
  deriving DecidableEq

structure ParseResult where
  status : ParseStatus := .needMoreData
  kind : ResponseKind := .invalid
  tpktLength : Nat := 0
  x224LengthIndicator : UInt8 := 0
  flags : UInt8 := 0
  /-- `kProtocolRdp`. -/
  selectedProtocol : Nat := 0
  failureCode : Nat := 0
  error : String := ""
  deriving DecidableEq

def readBigEndian16 (data : List UInt8) (i : Nat) : Nat :=
  (byteAt data i).toNat <<< 8 ||| (byteAt data (i + 1)).toNat

def readLittleEndian16 (data : List UInt8) (i : Nat) : Nat :=
  (byteAt data i).toNat ||| (byteAt data (i + 1)).toNat <<< 8

def readLittleEndian32 (data : List UInt8) (i : Nat) : Nat :=
  (byteAt data i).toNat ||| (byteAt data (i + 1)).toNat <<< 8
    ||| (byteAt data (i + 2)).toNat <<< 16
    ||| (byteAt data (i + 3)).toNat <<< 24

def invalidResult (error : String) : ParseResult :=
  { status := .invalid, error }

/-- The X.224 part of an answer of the declared length. -/
def parseConnectionConfirm (data : List UInt8) (tpktLength : Nat) :
    ParseResult :=
  -- a Connection Confirm has seven bytes of X.224, its length among them
  if data.length < 11 ∨ byteAt data 5 ≠ kX224ConnectionConfirm then
    invalidResult "RDP response is not an X.224 Connection Confirm"
  else
    let li := byteAt data 4
    if li < 6 ∨ li.toNat + 5 ≠ data.length then
      invalidResult "invalid X.224 Connection Confirm length"
    else if li = 6 then
      { status := .complete, kind := .noNegotiationData, tpktLength
        x224LengthIndicator := li }
    else if li ≠ 14 ∨ data.length ≠ 19 then
      invalidResult "unsupported RDP negotiation data length"
    else
      let type := byteAt data 11
      let flags := byteAt data 12
      if type ≠ kRdpNegResponse ∧ type ≠ kRdpNegFailure then
        invalidResult "unsupported RDP negotiation PDU type"
      else if readLittleEndian16 data 13 ≠ 8 then
        invalidResult "RDP negotiation PDU length is not 8"
      else if type = kRdpNegResponse then
        { status := .complete, kind := .negotiationResponse, tpktLength
          x224LengthIndicator := li, flags
          selectedProtocol := readLittleEndian32 data 15 }
      else if flags ≠ 0 then
        invalidResult "RDP_NEG_FAILURE contains unsupported flags"
      else
        { status := .complete, kind := .negotiationFailure, tpktLength
          x224LengthIndicator := li, flags
          failureCode := readLittleEndian32 data 15 }

def parseRdpNegotiationResponse (data : List UInt8) : ParseResult :=
  if data.length < 4 then { error := "TPKT header is incomplete" }
  else if byteAt data 0 ≠ kTpktVersion ∨ byteAt data 1 ≠ 0 then
    invalidResult "invalid TPKT version or reserved byte"
  else
    let tpktLength := readBigEndian16 data 2
    if tpktLength < 7 then
      invalidResult "TPKT length is below the protocol minimum"
    else if data.length < tpktLength then
      { tpktLength, error := "TPKT payload is incomplete" }
    else if data.length ≠ tpktLength then
      invalidResult "TPKT contains trailing bytes"
    else parseConnectionConfirm data tpktLength

structure RdpTpktAccumulator where
  bytes : List UInt8 := []
  invalid : Bool := false
  error : String := ""

namespace RdpTpktAccumulator

def kHeaderSize : Nat := 4
def kMaxTpktLength : Nat := 0xFFFF

def expectedLength (a : RdpTpktAccumulator) : Nat :=
  if a.bytes.length < kHeaderSize then 0 else readBigEndian16 a.bytes 2

/-- Whether the chunk was taken, and what is collected now. -/
def append (a : RdpTpktAccumulator) (data : List UInt8) :
    Bool × RdpTpktAccumulator :=
  if a.invalid then
    (false, { a with invalid := true, error := "invalid TPKT input" })
  else if data.length > kMaxTpktLength - a.bytes.length then
    (false, { a with invalid := true
                     error := "TPKT input exceeds maximum length" })
  else
    let b := { a with bytes := a.bytes ++ data }
    if b.expectedLength ≠ 0 ∧ b.bytes.length > b.expectedLength then
      (false, { b with invalid := true
                       error := "TPKT input contains trailing bytes" })
    else (true, b)

def parse (a : RdpTpktAccumulator) : ParseResult :=
  if a.invalid then invalidResult a.error
  else parseRdpNegotiationResponse a.bytes

/-- What is collected after the chunks, refused ones included. -/
def collect (chunks : List (List UInt8)) : RdpTpktAccumulator :=
  chunks.foldl (fun a data => (a.append data).2) {}

end RdpTpktAccumulator

/-- What a result says apart from the text of its error. -/
def ParseResult.fields (r : ParseResult) : ParseResult := { r with error := "" }

-- ================================== header

variable {data : List UInt8}

theorem byteAt_append {more : List UInt8} {i : Nat} (h : i < data.length) :
    byteAt (data ++ more) i = byteAt data i := by
  unfold byteAt
  rw [List.getD_append _ _ _ _ h]

theorem readBigEndian16_append {more : List UInt8} {i : Nat}
    (h : i + 1 < data.length) :
    readBigEndian16 (data ++ more) i = readBigEndian16 data i := by
  unfold readBigEndian16
  rw [byteAt_append (by omega), byteAt_append h]

theorem readBigEndian16_le (data : List UInt8) (i : Nat) :
    readBigEndian16 data i ≤ 0xFFFF := by
  have hlow := (byteAt data (i + 1)).toNat_lt
  have hhigh := (byteAt data i).toNat_lt
  have hlt : readBigEndian16 data i < 2 ^ 16 := by
    apply Nat.or_lt_two_pow
    · rw [Nat.shiftLeft_eq]
      omega
    · omega
  omega

/-- The answer is longer than its header declares. -/
def TooLong (data : List UInt8) : Prop :=
  4 ≤ data.length ∧ readBigEndian16 data 2 < data.length

theorem TooLong.append (h : TooLong data)
    (more : List UInt8) : TooLong (data ++ more) := by
  obtain ⟨hlen, hlong⟩ := h
  refine ⟨?_, ?_⟩
  · rw [List.length_append]
    omega
  · rw [readBigEndian16_append (by omega), List.length_append]
    omega

theorem TooLong.fields_parse (h : TooLong data)
    (error : String) : (parseRdpNegotiationResponse data).fields
      = (invalidResult error).fields := by
  obtain ⟨hlen, hlong⟩ := h
  unfold parseRdpNegotiationResponse
  rw [if_neg (by omega)]
  by_cases hversion : byteAt data 0 ≠ kTpktVersion ∨ byteAt data 1 ≠ 0
  · rw [if_pos hversion]
    rfl
  rw [if_neg hversion]
  dsimp only
  by_cases hmin : readBigEndian16 data 2 < 7
  · rw [if_pos hmin]
    rfl
  · rw [if_neg hmin, if_neg (by omega), if_pos (by omega)]
    rfl

theorem TooLong.invalid (h : TooLong data) :
    (parseRdpNegotiationResponse data).status = .invalid := by
  have hfields := congrArg ParseResult.status (h.fields_parse "")
  exact hfields

-- ================================= parsing

/-- A complete answer has the declared length. -/
theorem complete_length
    (h : (parseRdpNegotiationResponse data).status = .complete) :
    4 ≤ data.length ∧ byteAt data 0 = kTpktVersion ∧ byteAt data 1 = 0
      ∧ 7 ≤ readBigEndian16 data 2 ∧ data.length = readBigEndian16 data 2 := by
  unfold parseRdpNegotiationResponse at h
  by_cases hlen : data.length < 4
  · rw [if_pos hlen] at h
    cases h
  rw [if_neg hlen] at h
  by_cases hversion : byteAt data 0 ≠ kTpktVersion ∨ byteAt data 1 ≠ 0
  · rw [if_pos hversion] at h
    cases h
  rw [if_neg hversion] at h
  dsimp only at h
  by_cases hmin : readBigEndian16 data 2 < 7
  · rw [if_pos hmin] at h
    cases h
  rw [if_neg hmin] at h
  by_cases hshort : data.length < readBigEndian16 data 2
  · rw [if_pos hshort] at h
    cases h
  rw [if_neg hshort] at h
  by_cases hlong : data.length ≠ readBigEndian16 data 2
  · rw [if_pos hlong] at h
    cases h
  push Not at hversion hlong
  exact ⟨by omega, hversion.1, hversion.2, by omega, hlong⟩

/-- Short of a complete answer, more is asked for. -/
theorem prefix_needs_more {more : List UInt8}
    (h : (parseRdpNegotiationResponse (data ++ more)).status = .complete)
    (hmore : more ≠ []) :
    (parseRdpNegotiationResponse data).status = .needMoreData := by
  obtain ⟨-, hversion, hreserved, hmin, hlen⟩ := complete_length h
  have hpos := List.length_pos_of_ne_nil hmore
  rw [List.length_append] at hlen
  unfold parseRdpNegotiationResponse
  by_cases hheader : data.length < 4
  · rw [if_pos hheader]
  rw [byteAt_append (by omega)] at hversion hreserved
  rw [readBigEndian16_append (by omega)] at hmin hlen
  rw [if_neg hheader, if_neg (by simp [hversion, hreserved])]
  dsimp only
  rw [if_neg (by omega), if_pos (by omega)]

/-- What is invalid stays so, whatever follows. -/
theorem invalid_append
    (h : (parseRdpNegotiationResponse data).status = .invalid)
    (more : List UInt8) :
    (parseRdpNegotiationResponse (data ++ more)).status = .invalid := by
  by_cases hmore : more = []
  · rwa [hmore, List.append_nil]
  have hpos := List.length_pos_of_ne_nil hmore
  by_cases hlen : data.length < 4
  · rw [parseRdpNegotiationResponse, if_pos hlen] at h
    cases h
  by_cases hlong : readBigEndian16 data 2 ≤ data.length
  · apply TooLong.invalid
    refine ⟨?_, ?_⟩
    · rw [List.length_append]
      omega
    · rw [readBigEndian16_append (by omega), List.length_append]
      omega
  -- short of the declared length only the header can be wrong
  unfold parseRdpNegotiationResponse at h ⊢
  rw [if_neg hlen] at h
  rw [if_neg (by rw [List.length_append]; omega), byteAt_append (by omega),
    byteAt_append (by omega), readBigEndian16_append (by omega)]
  by_cases hversion : byteAt data 0 ≠ kTpktVersion ∨ byteAt data 1 ≠ 0
  · rw [if_pos hversion]
    rfl
  rw [if_neg hversion] at h ⊢
  dsimp only at h ⊢
  by_cases hmin : readBigEndian16 data 2 < 7
  · rw [if_pos hmin]
    rfl
  · rw [if_neg hmin, if_pos (by omega)] at h
    cases h

-- ============================== collecting

namespace RdpTpktAccumulator

/-- What is collected, against all that arrived. -/
def Holds (a : RdpTpktAccumulator) (arrived : List UInt8) : Prop :=
  if a.invalid then TooLong arrived
  else a.bytes = arrived ∧ arrived.length ≤ kMaxTpktLength

theorem Holds.append {a : RdpTpktAccumulator} {arrived : List UInt8}
    (h : Holds a arrived) (data : List UInt8) :
    Holds (a.append data).2 (arrived ++ data) := by
  unfold RdpTpktAccumulator.append
  by_cases hinvalid : a.invalid = true
  · rw [if_pos hinvalid]
    unfold Holds at h ⊢
    rw [if_pos hinvalid] at h
    exact h.append data
  rw [if_neg hinvalid]
  unfold Holds at h
  rw [if_neg hinvalid] at h
  obtain ⟨rfl, hmax⟩ := h
  by_cases hsize : data.length > kMaxTpktLength - a.bytes.length
  · rw [if_pos hsize]
    show TooLong (a.bytes ++ data)
    have hle := readBigEndian16_le (a.bytes ++ data) 2
    unfold kMaxTpktLength at hsize hmax
    refine ⟨?_, ?_⟩ <;> rw [List.length_append] <;> omega
  rw [if_neg hsize]
  dsimp only
  by_cases hlong : expectedLength { a with bytes := a.bytes ++ data } ≠ 0
      ∧ (a.bytes ++ data).length
        > expectedLength { a with bytes := a.bytes ++ data }
  · rw [if_pos hlong]
    show TooLong (a.bytes ++ data)
    unfold expectedLength kHeaderSize at hlong
    dsimp only at hlong
    by_cases hheader : (a.bytes ++ data).length < 4
    · rw [if_pos hheader] at hlong
      exact absurd rfl hlong.1
    · rw [if_neg hheader] at hlong
      exact ⟨by omega, hlong.2⟩
  · rw [if_neg hlong]
    unfold Holds
    rw [if_neg hinvalid]
    refine ⟨rfl, ?_⟩
    rw [List.length_append]
    unfold kMaxTpktLength at hsize hmax ⊢
    omega

theorem holds_collect (chunks : List (List UInt8)) :
    Holds (collect chunks) chunks.flatten := by
  induction chunks using List.reverseRecOn with
  | nil => exact ⟨rfl, Nat.zero_le _⟩
  | append_singleton chunks data ih =>
    rw [collect, List.foldl_append, List.flatten_append, List.flatten_singleton]
    exact ih.append data

/-- Collected and parsed as if it had arrived at once. -/
theorem fields_collect (chunks : List (List UInt8)) :
    (collect chunks).parse.fields
      = (parseRdpNegotiationResponse chunks.flatten).fields := by
  have h := holds_collect chunks
  unfold Holds at h
  unfold parse
  by_cases hinvalid : (collect chunks).invalid = true
  · rw [if_pos hinvalid] at h ⊢
    exact (h.fields_parse _).symm
  · rw [if_neg hinvalid] at h ⊢
    rw [h.1]

theorem status_collect (chunks : List (List UInt8)) :
    (collect chunks).parse.status
      = (parseRdpNegotiationResponse chunks.flatten).status := by
  have hfields := congrArg ParseResult.status (fields_collect chunks)
  exact hfields

/-- What holds of an answer that arrived in chunks. -/
structure Reassembles (chunks : List (List UInt8)) : Prop where
  /-- It reads as if it had arrived at once. -/
  same : (collect chunks).parse.fields
    = (parseRdpNegotiationResponse chunks.flatten).fields
  /-- To the text of its error, unless a chunk was refused. -/
  told : (collect chunks).invalid = false →
    (collect chunks).parse = parseRdpNegotiationResponse chunks.flatten
  /-- If it is complete, it was not before its last byte. -/
  awaited : (collect chunks).parse.status = .complete →
    ∀ begun rest, chunks.flatten = begun.flatten ++ rest → rest ≠ [] →
      (collect begun).parse.status = .needMoreData
  /-- If it is invalid, nothing that follows completes it. -/
  refused : (collect chunks).parse.status = .invalid →
    ∀ more, (collect (chunks ++ more)).parse.status = .invalid

theorem negotiation_reassembles (chunks : List (List UInt8)) :
    Reassembles chunks where
  same := fields_collect chunks
  told := by
    intro htaken
    have h := holds_collect chunks
    unfold Holds at h
    rw [if_neg (by simp [htaken])] at h
    rw [parse, if_neg (by simp [htaken]), h.1]
  awaited := by
    intro hcomplete begun rest heq hrest
    rw [status_collect, heq] at hcomplete
    rw [status_collect]
    exact prefix_needs_more hcomplete hrest
  refused := by
    intro hinvalid more
    rw [status_collect] at hinvalid ⊢
    rw [List.flatten_append]
    exact invalid_append hinvalid more.flatten

end RdpTpktAccumulator

end RemoteDesk.Rdp.Negotiation
