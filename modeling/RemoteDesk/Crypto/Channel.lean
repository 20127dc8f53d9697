/-
`CryptoChannel` (crypto_channel.rs): the encrypted peer channel.

# What is modelled

The sending half (`send_direct`, the hand-over to the streaming writer,
and the writer thread's loop over its queue) and the receiving half
(`recv_with_pump` with its resynchronisation over undecryptable frames).
A channel made by `new_plain` neither seals nor opens anything; what is
here is the channel made by `new`.

# Parameters

`SecretBox` stands for the two functions of the cipher crate under one
key. Reading a frame is a parameter of `recv`: `readBufferedFrame` is
what the source passes, and an adversary that owns the network chooses
its results. The outcome of a socket write is an argument of the send
that makes it.

# Nonces

A nonce is 24 bytes: a little-endian `u64` counter and zeros. The
counters wrap, as the source's `wrapping_add` does.
-/
import RemoteDesk.Crypto.WriterQueue

namespace RemoteDesk.Crypto

open Wire Lib

-- ============================== the cipher

/-- `secretbox_encrypt` and `secretbox_decrypt` under one key. -/
structure SecretBox where
  encrypt : Bytes → Bytes → Option Bytes
  decrypt : Bytes → Bytes → Option Bytes

/-- `u64::wrapping_add`. -/
def wrappingAdd (a b : Nat) : Nat := (a + b) % 2 ^ 64

/-- The nonce bytes of a counter value (`secretbox_nonce`, and the same
lines inlined where it is used). -/
def nonceBytes (counter : Nat) : Bytes :=
  leBytes 8 counter ++ List.replicate 16 0

def maxNonceRecoverySkip : Nat := 4096
def maxDecryptResyncFrames : Nat := 8

-- ================================= sending

def encryptionFailed : IoError :=
  { kind := .other, message := "encryption failed" }

/-- What one sealing left behind: the counter, the plaintext, the
ciphertext, and whether its frame was written. -/
structure Sealed where
  nonce : Nat
  plaintext : Bytes
  ciphertext : Bytes
  written : Bool
  deriving DecidableEq, Repr

/-- The body shared by `send_direct` and `CryptoWriter::send`: seal under
the next counter, write the frame, and only then advance. `write` is the
outcome of the socket write. -/
def sealAndWrite (box : SecretBox) (txNonce : Nat) (plaintext : Bytes)
    (write : Except IoError Unit) :
    Except IoError Unit × Nat × Option Sealed :=
  let nextNonce := wrappingAdd txNonce 1
  match box.encrypt (nonceBytes nextNonce) plaintext with
  | none => (.error encryptionFailed, txNonce, none)
  | some ciphertext =>
    let attempt (written : Bool) : Option Sealed :=
      some { nonce := nextNonce, plaintext, ciphertext, written }
    match writeFrame ciphertext with
    | .error e => (.error e, txNonce, attempt false)
    | .ok _ =>
      match write with
      | .error e => (.error e, txNonce, attempt false)
      | .ok () => (.ok (), nextNonce, attempt true)

/-- The streaming writer: its queue, the counter its thread owns, and
whether the thread is still in its loop. -/
structure StreamingWriter where
  queue : StreamingWriterState := {}
  txNonce : Nat
  running : Bool := true
  deriving DecidableEq, Repr

/-- The sending half of a channel. -/
structure Sender where
  txNonce : Nat := 0
  streamingWriter : Option StreamingWriter := none
  deriving DecidableEq, Repr

namespace Sender

/-- `start_streaming_writer`, where `setup` is the outcome of cloning the
stream and setting its timeout: the writer starts from the counter of
the channel. -/
def startStreamingWriter (s : Sender) (setup : Except IoError Unit) :
    Except IoError Unit × Sender :=
  if s.streamingWriter.isSome then (.ok (), s)
  else
    match setup with
    | .error e => (.error e, s)
    | .ok () =>
      (.ok (), { s with
        streamingWriter := some { txNonce := s.txNonce } })

/-- `send_direct`. -/
def sendDirect (box : SecretBox) (s : Sender) (plaintext : Bytes)
    (write : Except IoError Unit) :
    Except IoError Unit × Sender × Option Sealed :=
  let (result, txNonce, attempt) :=
    sealAndWrite box s.txNonce plaintext write
  (result, { s with txNonce }, attempt)

/-- One turn of `send`: to the queue once there is a writer (where a full
queue keeps the call waiting), directly before. -/
def send (box : SecretBox) (s : Sender) (plaintext : Bytes)
    (write : Except IoError Unit) : Sender × Option Sealed :=
  match s.streamingWriter with
  | some writer =>
    match writer.queue.enqueueControl plaintext none true true with
    | .accepted queue =>
      ({ s with streamingWriter := some { writer with queue } }, none)
    | .refused _ | .wait => (s, none)
  | none => (s.sendDirect box plaintext write).2

/-- `send_with_publication`. `alive` is what the receipt answers to
`begin_write` before a direct send, and to `pending` in the queue. -/
def sendWithPublication (box : SecretBox) (s : Sender)
    (plaintext : Bytes) (receipt : Receipt) (alive : Bool)
    (write : Except IoError Unit) : Sender × Option Sealed :=
  match s.streamingWriter with
  | some writer =>
    match writer.queue.enqueueControl plaintext (some receipt)
        alive alive with
    | .accepted queue =>
      ({ s with streamingWriter := some { writer with queue } }, none)
    | .refused _ | .wait => (s, none)
  | none =>
    if alive then (s.sendDirect box plaintext write).2 else (s, none)

/-- `send_low_priority`. -/
def sendLowPriority (box : SecretBox) (s : Sender) (plaintext : Bytes)
    (write : Except IoError Unit) : Sender × Option Sealed :=
  match s.streamingWriter with
  | some writer =>
    let queue := (writer.queue.enqueueAck plaintext).2
    ({ s with streamingWriter := some { writer with queue } }, none)
  | none => (s.sendDirect box plaintext write).2

/-- One turn of the writer thread: take a write and make it. A failed
write records the error and ends the thread; an expired publication
(`beginWrite` false) is skipped. -/
def writerTurn (box : SecretBox) (writer : StreamingWriter)
    (beginWrite : Bool) (write : Except IoError Unit) :
    StreamingWriter × Option Sealed :=
  if !writer.running then (writer, none)
  else
    match writer.queue.takeNext with
    | .wait => (writer, none)
    | .stop => ({ writer with running := false }, none)
    | .write queued queue =>
      if queued.publication.isSome && !beginWrite then
        ({ writer with queue }, none)
      else
        match sealAndWrite box writer.txNonce queued.bytes write with
        | (.ok (), txNonce, attempt) =>
          ({ writer with queue, txNonce }, attempt)
        | (.error e, txNonce, attempt) =>
          ({ queue := queue.setError e, txNonce, running := false },
            attempt)

/-- The writer thread's turn, if there is a writer. -/
def writerStep (box : SecretBox) (s : Sender) (beginWrite : Bool)
    (write : Except IoError Unit) : Sender × Option Sealed :=
  match s.streamingWriter with
  | none => (s, none)
  | some writer =>
    let (writer, attempt) := writerTurn box writer beginWrite write
    ({ s with streamingWriter := some writer }, attempt)

end Sender

-- =============================== receiving

/-- `try_decrypt`: the first of the next counters under which the
ciphertext opens, with that counter. -/
def tryDecrypt (box : SecretBox) (rxNonce : Nat) (ciphertext : Bytes) :
    Option (Bytes × Nat) :=
  (List.range' 1 maxNonceRecoverySkip).findSome? fun skip =>
    let candidate := wrappingAdd rxNonce skip
    (box.decrypt (nonceBytes candidate) ciphertext).map (·, candidate)

/-- `decrypt_failure_detail`. -/
def decryptFailureDetail (rxNonce : Nat) (ciphertext : Bytes) : String :=
  "decryption failed at rx_nonce=" ++ toString rxNonce
    ++ " tried_next=" ++ toString (wrappingAdd rxNonce 1) ++ ".."
    ++ toString (wrappingAdd rxNonce maxNonceRecoverySkip)
    ++ " ciphertext_len=" ++ toString ciphertext.length
    ++ " head_hex=[" ++ headerHex ciphertext 16
    ++ "] head_ascii='" ++ headerAscii ciphertext 16 ++ "'"

/-- `{:?}` of an error kind. -/
def debugKind : ErrorKind → String
  | .interrupted => "Interrupted"
  | .invalidData => "InvalidData"
  | .invalidInput => "InvalidInput"
  | .notConnected => "NotConnected"
  | .brokenPipe => "BrokenPipe"
  | .timedOut => "TimedOut"
  | .unexpectedEof => "UnexpectedEof"
  | .other => "Other"

section Recv

variable {σ : Type*}

/-- `recv_with_pump`'s loop, over any way of reading a ciphertext frame
from a source `σ`. `dropped` counts the undecryptable frames so far and
`resync` how many more may be dropped. The third component is
`rx_nonce`. -/
def recvLoop (box : SecretBox)
    (read : σ → Option (Except IoError Bytes × σ)) :
    (resync dropped : Nat) → (firstFailure : Option String) →
      (rxNonce : Nat) → σ →
      Option (Except IoError Bytes × Nat × σ)
  | resync, dropped, firstFailure, rxNonce, source =>
    match read source with
    | none => none
    | some (.error e, source) =>
      if e.kind = .interrupted then some (.error e, rxNonce, source)
      else if 0 < dropped then
        some (.error
          { kind := .invalidData
            message := firstFailure.getD "decryption failed"
              ++ " dropped_bad_frames=" ++ toString dropped
              ++ " next_read_error kind=" ++ debugKind e.kind
              ++ " msg=" ++ e.message }, rxNonce, source)
      else some (.error e, rxNonce, source)
    | some (.ok ciphertext, source) =>
      match tryDecrypt box rxNonce ciphertext with
      | some (plaintext, candidate) =>
        some (.ok plaintext, candidate, source)
      | none =>
        let detail := decryptFailureDetail rxNonce ciphertext
        match resync with
        | 0 =>
          some (.error
            { kind := .invalidData
              message := detail ++ " dropped_bad_frames="
                ++ toString dropped }, rxNonce, source)
        | resync + 1 =>
          recvLoop box read resync (dropped + 1)
            (some (firstFailure.getD detail)) rxNonce source

/-- `recv_with_pump`: up to `MAX_DECRYPT_RESYNC_FRAMES` frames are
dropped before the loop gives up. -/
def recv (box : SecretBox)
    (read : σ → Option (Except IoError Bytes × σ)) (rxNonce : Nat)
    (source : σ) : Option (Except IoError Bytes × Nat × σ) :=
  recvLoop box read maxDecryptResyncFrames 0 none rxNonce source

end Recv

/-- The error of a connection closed between frames. -/
def connectionClosed : IoError :=
  { kind := .unexpectedEof
    message := "connection closed while reading frame" }

/-- The source's own way of reading a frame: the receive buffer and the
socket behind it. -/
def readCiphertextFrame (source : Bytes × List ReadEvent) :
    Option (Except IoError Bytes × Bytes × List ReadEvent) :=
  readBufferedFrame connectionClosed source.2 source.1

end RemoteDesk.Crypto
