/-
The RustDesk frame codec (protocol/wire.rs) and the buffered reader of
the crypto channel (`try_take_frame`, crypto_channel.rs).

# The frame

A frame is a header of one to four bytes and a payload. The header is a
little-endian number whose low two bits are the header's length less
one and whose other bits are the payload's length.

# The readers

`read_frame` reads from a stream with `read_exact`: the stream is a byte
string, and `readExact` takes from it what it is asked for or, at the
end of input, everything. `try_take_frame` looks at a buffer that grows
between calls. The two decode the header with code of their own.

# Errors

An `io::Error` is its kind and its text.
-/
import RemoteDesk.Lib.LittleEndian

namespace RemoteDesk.Wire

open Lib

abbrev Bytes := List UInt8

-- ================================== errors

inductive ErrorKind
  | interrupted
  | invalidData
  | invalidInput
  | notConnected
  | brokenPipe
  | timedOut
  | unexpectedEof
  | other
  deriving DecidableEq, Repr

structure IoError where
  kind : ErrorKind
  message : String
  deriving DecidableEq, Repr

/-- `MAX_FRAME_SIZE`: 16 MiB. -/
def maxFrameSize : Nat := 16 * 1024 * 1024

/-- `{:02X}`. -/
def hexByte (byte : UInt8) : String :=
  let digit (n : Nat) : Char :=
    if n < 10 then Char.ofNat (48 + n) else Char.ofNat (55 + n)
  String.ofList [digit (byte.toNat / 16), digit (byte.toNat % 16)]

/-- `header_hex`, and `bytes_hex` of the crypto channel. -/
def headerHex (head : Bytes) (headLen : Nat) : String :=
  " ".intercalate ((head.take headLen).map hexByte)

/-- `header_ascii`, and `bytes_ascii` of the crypto channel. -/
def headerAscii (head : Bytes) (headLen : Nat) : String :=
  String.ofList ((head.take headLen).map fun byte =>
    if 0x20 ≤ byte ∧ byte ≤ 0x7e then Char.ofNat byte.toNat else '.')

/-- The refusal both readers give an oversize header. -/
def frameTooLarge (len headLen : Nat) (head : Bytes) : IoError :=
  { kind := .invalidData
    message := "frame too large: " ++ toString len ++ " bytes (max "
      ++ toString maxFrameSize ++ ") header_len=" ++ toString headLen
      ++ " header_hex=[" ++ headerHex head headLen
      ++ "] header_ascii='" ++ headerAscii head headLen ++ "'" }

-- ================================== writer

/-- `write_len`. -/
def writeLen (len : Nat) : Except IoError Bytes :=
  if len ≤ 0x3F then
    .ok [UInt8.ofNat (len <<< 2)]
  else if len ≤ 0x3FFF then
    .ok (leBytes 2 ((len <<< 2) % 2 ^ 16 ||| 0x01))
  else if len ≤ 0x3FFFFF then
    let head := (len <<< 2) % 2 ^ 32 ||| 0x02
    .ok [UInt8.ofNat (head &&& 0xFF), UInt8.ofNat ((head >>> 8) &&& 0xFF),
      UInt8.ofNat ((head >>> 16) &&& 0xFF)]
  else if len ≤ 0x3FFFFFFF then
    .ok (leBytes 4 ((len <<< 2) % 2 ^ 32 ||| 0x03))
  else
    .error { kind := .invalidInput, message := "frame length overflow" }

/-- `write_frame`: the bytes it puts on the stream. -/
def writeFrame (payload : Bytes) : Except IoError Bytes :=
  let len := payload.length
  if maxFrameSize < len then
    .error
      { kind := .invalidData
        message := "frame too large: " ++ toString len ++ " bytes" }
  else
    match writeLen len with
    | .error e => .error e
    | .ok head => .ok (head ++ payload)

-- =========================== stream reader

/-- `Read::read_exact`'s error at the end of input. -/
def eofError : IoError :=
  { kind := .unexpectedEof, message := "failed to fill whole buffer" }

/-- `Read::read_exact`: `n` bytes, and the stream after them. A short
stream is read to its end. -/
def readExact (n : Nat) (stream : Bytes) : Except IoError Bytes × Bytes :=
  if stream.length < n then (.error eofError, [])
  else (.ok (stream.take n), stream.drop n)

/-- `((first & 0x03) + 1) as usize`. -/
def headLenOf (first : UInt8) : Nat := ((first &&& 0x03) + 1).toNat

structure FrameHeader where
  len : Nat
  headLen : Nat
  head : Bytes
  deriving DecidableEq, Repr

/-- `decode_frame_length`, over the zero-padded four header bytes. -/
def decodeFrameLength (head : Bytes) (headLen : Nat) : Nat :=
  let encoded := (head.getD 0 0).toNat
  let encoded := if 1 < headLen
    then encoded ||| (head.getD 1 0).toNat <<< 8 else encoded
  let encoded := if 2 < headLen
    then encoded ||| (head.getD 2 0).toNat <<< 16 else encoded
  let encoded := if 3 < headLen
    then encoded ||| (head.getD 3 0).toNat <<< 24 else encoded
  encoded >>> 2

/-- `read_len_with_header`. -/
def readLenWithHeader (stream : Bytes) :
    Except IoError FrameHeader × Bytes :=
  match readExact 1 stream with
  | (.error e, stream) => (.error e, stream)
  | (.ok first, stream) =>
    let headLen := headLenOf (first.headD 0)
    match if 1 < headLen then readExact (headLen - 1) stream
      else (.ok [], stream) with
    | (.error e, stream) => (.error e, stream)
    | (.ok tail, stream) =>
      let head := (first ++ tail).rightpad 4 0
      (.ok { len := decodeFrameLength head headLen, headLen, head },
        stream)

/-- `read_frame`. -/
def readFrame (stream : Bytes) : Except IoError Bytes × Bytes :=
  match readLenWithHeader stream with
  | (.error e, stream) => (.error e, stream)
  | (.ok header, stream) =>
    if maxFrameSize < header.len then
      (.error (frameTooLarge header.len header.headLen header.head),
        stream)
    else readExact header.len stream

-- ========================= buffered reader

/-- `try_take_frame`: the frame at the front of the buffer, if it is
there in full, and the buffer after it. -/
def tryTakeFrame (buffer : Bytes) :
    Except IoError (Option Bytes) × Bytes :=
  match buffer with
  | [] => (.ok none, buffer)
  | first :: _ =>
    let headLen := headLenOf first
    if buffer.length < headLen then (.ok none, buffer)
    else
      let n := first.toNat
      let n := if 1 < headLen
        then n ||| (buffer.getD 1 0).toNat <<< 8 else n
      let n := if 2 < headLen
        then n ||| (buffer.getD 2 0).toNat <<< 16 else n
      let n := if 3 < headLen
        then n ||| (buffer.getD 3 0).toNat <<< 24 else n
      let len := n >>> 2
      if maxFrameSize < len then
        (.error (frameTooLarge len headLen (buffer.take headLen)),
          buffer)
      else
        let frameEnd := headLen + len
        if buffer.length < frameEnd then (.ok none, buffer)
        else
          (.ok (some ((buffer.drop headLen).take len)),
            buffer.drop frameEnd)

/-- One result of `Read::read` into the receive chunk. -/
inductive ReadEvent
  | data (chunk : Bytes)
  | interrupted
  | failed (error : IoError)
  deriving DecidableEq, Repr

/-- `read_ciphertext_frame_with_pump` and `read_plain_frame_with_pump`,
with a pump that does nothing: take a frame, or read and try again.
`none` is a reader still waiting for its next event. -/
def readBufferedFrame (closed : IoError) :
    List ReadEvent → Bytes →
      Option (Except IoError Bytes × Bytes × List ReadEvent)
  | [], buffer =>
    match tryTakeFrame buffer with
    | (.error e, buffer) => some (.error e, buffer, [])
    | (.ok (some frame), buffer) => some (.ok frame, buffer, [])
    | (.ok none, _) => none
  | event :: events, buffer =>
    match tryTakeFrame buffer with
    | (.error e, buffer) => some (.error e, buffer, event :: events)
    | (.ok (some frame), buffer) =>
      some (.ok frame, buffer, event :: events)
    | (.ok none, buffer) =>
      match event with
      | .data chunk =>
        if chunk = [] then some (.error closed, buffer, events)
        else readBufferedFrame closed events (buffer ++ chunk)
      | .interrupted => readBufferedFrame closed events buffer
      | .failed e => some (.error e, buffer, events)

end RemoteDesk.Wire
