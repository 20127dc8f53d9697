/-
Codes of the TOTP engine (services/TotpEngine.ets): keyed hashing and
`_generateCode`.

Of an entry only what the engine reads is kept. `progress` is a fraction.
-/
import RemoteDesk.Totp.Sha512

namespace RemoteDesk.Totp

open Lib

-- ==================================== HMAC

def _hmac (hashFn : List UInt8 → List UInt8) (blockSize outLen : Nat)
    (key message : List UInt8) : List UInt8 :=
  let keyBytes := if key.length > blockSize then hashFn key else key
  let paddedKey := setBytes (List.replicate blockSize 0) keyBytes 0
  let oKeyPad := paddedKey.map fun b => toByte (bitXor b.toNat 0x5C)
  let iKeyPad := paddedKey.map fun b => toByte (bitXor b.toNat 0x36)
  let innerMsg := setBytes (setBytes
    (List.replicate (blockSize + message.length) 0) iKeyPad 0) message
    blockSize
  let innerHash := hashFn innerMsg
  let outerMsg := setBytes (setBytes
    (List.replicate (blockSize + outLen) 0) oKeyPad 0) innerHash blockSize
  hashFn outerMsg

def _hmacSha1 (key message : List UInt8) : List UInt8 :=
  _hmac _sha1 64 20 key message

def _hmacSha256 (key message : List UInt8) : List UInt8 :=
  _hmac _sha256 64 32 key message

def _hmacSha512 (key message : List UInt8) : List UInt8 :=
  _hmac _sha512 128 64 key message

-- =================================== codes

inductive TotpAlgorithm where
  | SHA1
  | SHA256
  | SHA512
deriving DecidableEq, Repr

structure TotpEntry where
  secret : List Nat
  algorithm : TotpAlgorithm := .SHA1
  digits : Nat := 6
  period : Nat := 30
deriving DecidableEq, Repr

structure TotpCode where
  code : List Nat
  remaining : Nat
  total : Nat
  progress : ℚ
  counter : Nat
  validUntilMs : Nat
  valid : Bool
deriving DecidableEq, Repr

/-- The counter as the eight bytes of the message. -/
def counterBytes (counterVal : Nat) : List UInt8 :=
  ((List.range 8).foldl (fun (cb, c) n =>
    (cb.set (7 - n) (toByte (bitAnd c 0xFF)), c / 256))
    (List.replicate 8 (0 : UInt8), counterVal)).1

def hmacOf : TotpAlgorithm → List UInt8 → List UInt8 → List UInt8
  | .SHA256 => _hmacSha256
  | .SHA512 => _hmacSha512
  | .SHA1 => _hmacSha1

/-- Where the truncation starts to read. -/
def truncationOffset (hmacResult : List UInt8) : Nat :=
  (bitAnd (numberAt hmacResult (hmacResult.length - 1)) 0x0F).toNat

/-- The four bytes read there, without the sign bit. -/
def truncated (hmacResult : List UInt8) : Int :=
  let offset := truncationOffset hmacResult
  bitOr (bitOr (bitOr
    (shiftLeft (bitAnd (numberAt hmacResult offset) 0x7F) 24)
    (shiftLeft (bitAnd (numberAt hmacResult (offset + 1)) 0xFF) 16))
    (shiftLeft (bitAnd (numberAt hmacResult (offset + 2)) 0xFF) 8))
    (bitAnd (numberAt hmacResult (offset + 3)) 0xFF)

def padStart (text : List Nat) (length fill : Nat) : List Nat :=
  List.replicate (length - text.length) fill ++ text

def _generateCode (beyond : List Nat → List Nat) (secretBase32 : List Nat)
    (algorithm : TotpAlgorithm) (digits period : Nat) (nowMs : Int) :
    TotpCode :=
  let now := (max 0 (nowMs / 1000)).toNat
  let counterVal := now / period
  let remaining := period - now % period
  let validUntilMs := (counterVal + 1) * period * 1000
  let keyBytes := decodeBase32 beyond secretBase32
  let hmacResult := hmacOf algorithm keyBytes (counterBytes counterVal)
  let codeNum := (truncated hmacResult).tmod (10 ^ digits : Nat)
  { code := padStart (numeral 10 codeNum.toNat) digits 48
    remaining, total := period, progress := 1 - remaining / period
    counter := counterVal, validUntilMs, valid := validUntilMs > nowMs }

def generateCodeAt (beyond : List Nat → List Nat) (entry : TotpEntry)
    (nowMs : Int) : TotpCode :=
  _generateCode beyond entry.secret entry.algorithm entry.digits entry.period
    nowMs

end RemoteDesk.Totp
