/-
The framing of one HTTP/1.x response
(moonlight/runtime/MoonlightHttpResponseFraming.cpp).

The bytes that have arrived are read from their beginning each time. A
cursor into them is the list that it leaves; a loop that moves one is given
as many rounds as there are bytes. Sizes are `Nat`, but for the sum that may
pass 64 bits.
-/
import RemoteDesk.Lib.Search
import RemoteDesk.Lib.Trim
import RemoteDesk.Lib.Unicode

namespace RemoteDesk.Moonlight.Runtime

open Lib

abbrev Bytes : Type := List UInt8

def kMaximumChunkLineBytes : Nat := 1024

inductive MoonlightHttpFramingState where
  | NeedMore
  | Complete
  | ProtocolError
  | BodyTooLarge
deriving DecidableEq, Repr

inductive BodyMode where
  | None
  | ContentLength
  | Chunked
  | UntilClose
deriving DecidableEq, Repr

structure HeaderProjection where
  state : MoonlightHttpFramingState := .NeedMore
  complete : Bool := false
  status : Nat := 0
  bodyOffset : Nat := 0
  mode : BodyMode := .UntilClose
  contentLength : Nat := 0
deriving DecidableEq, Repr

structure ChunkProjection where
  state : MoonlightHttpFramingState := .NeedMore
  consumedBytes : Nat := 0
  decodedBytes : Nat := 0
deriving DecidableEq, Repr

structure MoonlightHttpFramingResult where
  state : MoonlightHttpFramingState := .NeedMore
  headersComplete : Bool := false
  httpStatus : Nat := 0
  consumedBytes : Nat := 0
  body : Bytes := []
deriving DecidableEq, Repr

def resultFor (state : MoonlightHttpFramingState) (headersComplete : Bool)
    (httpStatus : Nat) : MoonlightHttpFramingResult :=
  { state, headersComplete, httpStatus }

-- ================================== tokens

def crlf : Bytes := [13, 10]

def isOws (value : UInt8) : Bool := value = 32 || value = 9

def trimOws (value : Bytes) : Bytes := trimBy isOws value

def isDigit (character : UInt8) : Bool := 48 ≤ character && character ≤ 57

def isUpper (character : UInt8) : Bool := 65 ≤ character && character ≤ 90

def isLower (character : UInt8) : Bool := 97 ≤ character && character ≤ 122

def validHeaderName (value : Bytes) : Bool :=
  value ≠ [] && value.all fun character =>
    isDigit character || isUpper character || isLower character
      || (ascii "!#$%&'*+-.^_\x60|~").contains character

def validHeaderValue (value : Bytes) : Bool :=
  value.all fun character =>
    character = 9 || (character ≥ 0x20 && character ≠ 0x7f)

def lowerAscii (value : Bytes) : Bytes :=
  value.map fun character =>
    if isUpper character then character - 65 + 97 else character

/-- The loops of `parseDecimal` and `parseHex`. -/
def parseDigits (base : Nat) (digitOf : UInt8 → Option Nat) :
    Bytes → Nat → Option Nat
  | [], parsed => some parsed
  | character :: value, parsed =>
    match digitOf character with
    | none => none
    | some digit =>
      if parsed > (2 ^ 64 - 1 - digit) / base then none
      else parseDigits base digitOf value (parsed * base + digit)

def decimalDigit (character : UInt8) : Option Nat :=
  if isDigit character then some (character.toNat - 48) else none

def hexDigit (character : UInt8) : Option Nat :=
  if isDigit character then some (character.toNat - 48)
  else if 97 ≤ character && character ≤ 102 then
    some (character.toNat - 97 + 10)
  else if 65 ≤ character && character ≤ 70 then
    some (character.toNat - 65 + 10)
  else none

def parseDecimal (value : Bytes) : Option Nat :=
  let value := trimOws value
  if value = [] then none else parseDigits 10 decimalDigit value 0

def parseHex (value : Bytes) : Option Nat :=
  if value = [] then none else parseDigits 16 hexDigit value 0

-- ================================= headers

/-- The pieces between commas. -/
def pieces (value : Bytes) : List Bytes := value.splitOn 44

/-- The loop of `mergeContentLength`; no result where it returns false. -/
def mergePieces : List Bytes → Option Nat → Option (Option Nat)
  | [], contentLength => some contentLength
  | piece :: rest, contentLength =>
    match parseDecimal piece with
    | none => none
    | some parsed =>
      if contentLength.any (· ≠ parsed) then none
      else mergePieces rest (some parsed)

def mergeContentLength (value : Bytes) (contentLength : Option Nat) :
    Option (Option Nat) := mergePieces (pieces value) contentLength

/-- The loop of `appendTransferCodings`; no result where it returns false. -/
def appendPieces : List Bytes → List Bytes → Option (List Bytes)
  | [], codings => some codings
  | piece :: rest, codings =>
    let token := trimOws piece
    if token = [] then none
    else appendPieces rest (codings ++ [lowerAscii token])

def appendTransferCodings (value : Bytes) (codings : List Bytes) :
    Option (List Bytes) := appendPieces (pieces value) codings

/-- Whether a status line is one, and the status as far as it was read. -/
def parseStatusLine (line : Bytes) : Bool × Nat :=
  if line.length < 12
      || (line.take 8 ≠ ascii "HTTP/1.0" && line.take 8 ≠ ascii "HTTP/1.1")
      || line.getD 8 0 ≠ 32 || !((line.drop 9).take 3).all isDigit
      || (line.length > 12 && line.getD 12 0 ≠ 32) then (false, 0)
  else if !validHeaderValue line then (false, 0)
  else
    let status := ((line.drop 9).take 3).foldl
      (fun status digit => status * 10 + (digit.toNat - 48)) 0
    (100 ≤ status && status ≤ 599, status)

/-- The lines of the header, as one `find` after the other gives them. The
marker ends the last. -/
def linesOf : Nat → Bytes → List Bytes
  | 0, _ => []
  | rounds + 1, rest =>
    match find crlf rest with
    | none => [rest]
    | some lineEnd =>
      rest.take lineEnd :: linesOf rounds (rest.drop (lineEnd + 2))

def nameOf (line : Bytes) : Bytes := line.takeWhile (· ≠ 58)

def valueOf (line : Bytes) : Bytes := (line.dropWhile (· ≠ 58)).drop 1

/-- What a header line has to be like: it starts with a name and a colon. -/
def validLine (line : Bytes) : Bool :=
  !line.isEmpty && !line.head?.any isOws && line.contains 58
    && validHeaderName (nameOf line) && validHeaderValue (valueOf line)

/-- The loop over header lines: the length and the codings, or none where a
line is refused. -/
def readFields : List Bytes → Option Nat → List Bytes →
    Option (Option Nat × List Bytes)
  | [], contentLength, codings => some (contentLength, codings)
  | line :: rest, contentLength, codings =>
    if !validLine line then none
    else
      let name := lowerAscii (nameOf line)
      let value := trimOws (valueOf line)
      if name = ascii "content-length" then
        match mergeContentLength value contentLength with
        | none => none
        | some contentLength => readFields rest contentLength codings
      else if name = ascii "transfer-encoding" then
        match appendTransferCodings value codings with
        | none => none
        | some codings => readFields rest contentLength codings
      else readFields rest contentLength codings

def bodyMode (status : Nat) (contentLength : Option Nat)
    (codings : List Bytes) : BodyMode :=
  if (status ≥ 100 && status < 200) || status = 204 || status = 304 then .None
  else if codings ≠ [] then .Chunked
  else if contentLength.isSome then .ContentLength
  else .UntilClose

def marker : Bytes := crlf ++ crlf

/-- `parseHeaders` behind the marker, on what is in front of it. -/
def parseHead (head : Bytes) (bodyOffset maxBodyBytes : Nat) :
    HeaderProjection :=
  let lines := linesOf (head.length + 1) head
  let (valid, status) := parseStatusLine (lines.headD [])
  let refused : HeaderProjection :=
    { state := .ProtocolError, status, bodyOffset }
  if !valid then refused
  else
    match readFields lines.tail none [] with
    | none => refused
    | some (contentLength, codings) =>
      if contentLength.isSome && codings ≠ [] then refused
      else if codings ≠ [] && codings ≠ [ascii "chunked"] then refused
      else
        let mode := bodyMode status contentLength codings
        { complete := true
          status
          bodyOffset
          mode
          contentLength :=
            if mode = .ContentLength then contentLength.getD 0 else 0
          state :=
            if mode = .ContentLength ∧ contentLength.getD 0 > maxBodyBytes
            then .BodyTooLarge else .NeedMore }

def parseHeaders (wire : Bytes) (endOfStream : Bool)
    (maxHeaderBytes maxBodyBytes : Nat) : HeaderProjection :=
  match find marker wire with
  | none =>
    { state :=
        if wire.length > maxHeaderBytes then .BodyTooLarge
        else if endOfStream then .ProtocolError else .NeedMore }
  | some place =>
    if place + 4 > maxHeaderBytes then
      { state := .BodyTooLarge, bodyOffset := place + 4 }
    else parseHead (wire.take place) (place + 4) maxBodyBytes

-- ================================== chunks

/-- The size that a chunk line gives, in front of its extension. -/
def chunkSize (line : Bytes) : Option Nat :=
  parseHex (trimOws (line.takeWhile (· ≠ 59)))

def validTrailer (trailer : Bytes) : Bool :=
  !trailer.head?.any isOws && trailer.contains 58
    && validHeaderName (nameOf trailer) && validHeaderValue (valueOf trailer)
    && lowerAscii (nameOf trailer) ≠ ascii "content-length"
    && lowerAscii (nameOf trailer) ≠ ascii "transfer-encoding"

section Scan

variable (wireBytes : Nat) (endOfStream : Bool)
  (maxHeaderBytes maxBodyBytes : Nat)

/-- What a scan returns where more bytes are needed. -/
def unfinished : ChunkProjection :=
  { state := if endOfStream then .ProtocolError else .NeedMore }

/-- The loop over trailers; `used` bytes of them are behind the cursor. -/
def scanTrailers (decoded : Nat) : Nat → Bytes → Nat → ChunkProjection
  | 0, _, _ => {}
  | rounds + 1, rest, used =>
    match find crlf rest with
    | none =>
      if used + rest.length > maxHeaderBytes then
        { state := .BodyTooLarge }
      else unfinished endOfStream
    | some lineBytes =>
      if used + lineBytes > maxHeaderBytes then { state := .BodyTooLarge }
      else
        let behind := rest.drop (lineBytes + 2)
        if lineBytes = 0 then
          { consumedBytes := wireBytes - behind.length
            decodedBytes := decoded
            state := if behind = [] then .Complete else .ProtocolError }
        else if !validTrailer (rest.take lineBytes) then
          { state := .ProtocolError }
        else scanTrailers decoded rounds behind (used + lineBytes + 2)

/-- The loop over chunks. -/
def scanChunks : Nat → Bytes → Nat → Nat → ChunkProjection
  | 0, _, _, _ => {}
  | rounds + 1, rest, decoded, framingBytes =>
    match find crlf rest with
    | none =>
      if rest.length > kMaximumChunkLineBytes then
        { state := .BodyTooLarge }
      else unfinished endOfStream
    | some lineBytes =>
      if lineBytes = 0 ∨ lineBytes > kMaximumChunkLineBytes then
        { state := if lineBytes > kMaximumChunkLineBytes then
            .BodyTooLarge else .ProtocolError }
      else
        match chunkSize (rest.take lineBytes) with
        | none => { state := .ProtocolError }
        | some chunkBytes =>
          let framingBytes := framingBytes + (lineBytes + 2)
          if framingBytes > maxHeaderBytes
              ∨ chunkBytes > maxBodyBytes - decoded then
            { state := .BodyTooLarge }
          else
            let rest := rest.drop (lineBytes + 2)
            if chunkBytes = 0 then
              scanTrailers wireBytes endOfStream maxHeaderBytes decoded
                (rest.length + 1) rest 0
            else if rest.length < (chunkBytes + 2) % 2 ^ 64 then
              unfinished endOfStream
            else if (rest.drop chunkBytes).take 2 ≠ crlf then
              { state := .ProtocolError }
            else if framingBytes + 2 > maxHeaderBytes then
              { state := .BodyTooLarge }
            else scanChunks rounds (rest.drop (chunkBytes + 2))
              (decoded + chunkBytes) (framingBytes + 2)

def scanChunked (body : Bytes) : ChunkProjection :=
  scanChunks wireBytes endOfStream maxHeaderBytes maxBodyBytes
    (body.length + 1) body 0 0

end Scan

/-- The loop of `decodeChunked`, over a body that was scanned. -/
def decodeChunks (decodedBytes : Nat) : Nat → Bytes → Bytes → Bytes
  | 0, _, body => body
  | rounds + 1, rest, body =>
    if body.length < decodedBytes then
      let lineEnd := (find crlf rest).getD rest.length
      let chunkBytes := (chunkSize (rest.take lineEnd)).getD 0
      let rest := rest.drop (lineEnd + 2)
      decodeChunks decodedBytes rounds (rest.drop (chunkBytes + 2))
        (body ++ rest.take chunkBytes)
    else body

def decodeChunked (body : Bytes) (decodedBytes : Nat) : Bytes :=
  decodeChunks decodedBytes (body.length + 1) body []

-- ================================ response

/-- What becomes of the bytes behind the header. -/
def inspectBody (header : HeaderProjection) (wireBytes : Nat)
    (endOfStream : Bool) (maxHeaderBytes maxBodyBytes : Nat) (body : Bytes) :
    MoonlightHttpFramingResult :=
  match header.mode with
  | .None =>
    if body.length ≠ 0 then resultFor .ProtocolError true header.status
    else
      { resultFor .Complete true header.status with
        consumedBytes := header.bodyOffset }
  | .ContentLength =>
    if body.length > header.contentLength then
      resultFor .ProtocolError true header.status
    else if body.length < header.contentLength then
      resultFor (if endOfStream then .ProtocolError else .NeedMore) true
        header.status
    else
      { resultFor .Complete true header.status with
        consumedBytes := wireBytes
        body := body.take header.contentLength }
  | .UntilClose =>
    if body.length > maxBodyBytes then
      resultFor .BodyTooLarge true header.status
    else if !endOfStream then resultFor .NeedMore true header.status
    else
      { resultFor .Complete true header.status with
        consumedBytes := wireBytes
        body }
  | .Chunked =>
    let chunked := scanChunked wireBytes endOfStream maxHeaderBytes
      maxBodyBytes body
    { resultFor chunked.state true header.status with
      consumedBytes := chunked.consumedBytes
      body := if chunked.state = .Complete then
        decodeChunked body chunked.decodedBytes else [] }

def inspectMoonlightHttpResponse (wire : Bytes) (endOfStream : Bool)
    (maxHeaderBytes maxBodyBytes : Nat) : MoonlightHttpFramingResult :=
  let header := parseHeaders wire endOfStream maxHeaderBytes maxBodyBytes
  if !header.complete || header.state ≠ .NeedMore then
    resultFor header.state header.complete header.status
  else inspectBody header wire.length endOfStream maxHeaderBytes maxBodyBytes
    (wire.drop header.bodyOffset)

end RemoteDesk.Moonlight.Runtime
