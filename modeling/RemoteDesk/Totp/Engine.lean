/-
The TOTP engine (services/TotpEngine.ets).

# Numbers

A `number` that a bit operation has touched is an `Int`; sums of them stay
far below 2^53 and are exact. `none` is what an array gives beyond its end
(and what a sum with it is): bit operations take it for zero. Times and
periods are whole, as `Date.now()` and the stored entries are.

# Texts

Strings are their UTF-16 units. `toUpperCase` beyond ASCII is a
parameter.
-/
import RemoteDesk.Lib.Words
import RemoteDesk.Lib.Numeral
import RemoteDesk.Lib.LittleEndian

namespace RemoteDesk.Totp

open Lib

-- ============================ typed arrays

/-- What a `Uint8Array` keeps of a number. -/
def toByte (x : Int) : UInt8 := ⟨BitVec.ofInt 8 x⟩

/-- `target.set(source, offset)`, for a source that fits. -/
def setBytes (target source : List UInt8) (offset : Nat) : List UInt8 :=
  target.take offset ++ source ++ target.drop (offset + source.length)

/-- A byte as a number. -/
def numberAt (data : List UInt8) (i : Nat) : Int := (byteAt data i).toNat

-- ================================== base32

def BASE32_ALPHABET : List Nat := codes "ABCDEFGHIJKLMNOPQRSTUVWXYZ234567"

/-- `toUpperCase`: ASCII letters, and `beyond` for other texts. -/
def toUpperCase (beyond : List Nat → List Nat) (text : List Nat) :
    List Nat :=
  if text.all (· < 128) then
    text.map fun u => if 97 ≤ u ∧ u ≤ 122 then u - 32 else u
  else beyond text

/-- What `/[^A-Z2-7]/g` leaves. -/
def isBase32Code (u : Nat) : Bool := (65 ≤ u && u ≤ 90) || (50 ≤ u && u ≤ 55)

structure Base32State where
  output : List UInt8 := []
  buffer : Int := 0
  bitsLeft : Nat := 0

/-- One character that is in the alphabet. -/
def Base32State.push (s : Base32State) (val : Nat) : Base32State :=
  let buffer := bitOr (shiftLeft s.buffer 5) val
  let bitsLeft := s.bitsLeft + 5
  if bitsLeft ≥ 8 then
    let bitsLeft := bitsLeft - 8
    { output := s.output ++ [toByte (bitAnd (shiftRight buffer bitsLeft) 0xff)]
      buffer := bitAnd buffer (shiftLeft 1 bitsLeft - 1)
      bitsLeft }
  else { s with buffer, bitsLeft }

def decodeLoop (s : Base32State) : List Nat → Base32State
  | [] => s
  | ch :: rest =>
    if ch = 61 then s
    else match BASE32_ALPHABET.idxOf? ch with
      | none => decodeLoop s rest
      | some val => decodeLoop (s.push val) rest

def decodeBase32 (beyond : List Nat → List Nat) (input : List Nat) :
    List UInt8 :=
  let cleaned := (toUpperCase beyond input).filter isBase32Code
  let cleaned := cleaned ++ List.replicate ((8 - cleaned.length % 8) % 8) 61
  (decodeLoop {} cleaned).output

-- ======================= SHA-1 and SHA-256

def _leftRotate (value amount : Int) : Int :=
  shiftRight (bitOr (shiftLeft value amount) (shiftRight value (32 - amount)))
    0

def _rightRotate (value amount : Int) : Int :=
  shiftRight (bitOr (shiftRight value amount) (shiftLeft value (32 - amount)))
    0

/-- The padded message, as both functions build it. -/
def padded (data : List UInt8) : List UInt8 :=
  let msgLen := data.length * 8
  let paddedLen := data.length + 1
  let totalBlocks := (paddedLen + 8 + 63) / 64
  let totalLen := totalBlocks * 64
  let bytes := (setBytes (List.replicate totalLen 0) data 0).set data.length
    0x80
  (List.range 8).foldl (fun bytes i => bytes.set (totalLen - 1 - i)
    (toByte (bitAnd (msgLen / 2 ^ (i * 8) : Nat) 0xff))) bytes

def totalBlocks (data : List UInt8) : Nat := (data.length + 1 + 8 + 63) / 64

/-- The word at an offset. -/
def wordAt (bytes : List UInt8) (offset : Nat) : Int :=
  bitOr (bitOr (bitOr (shiftLeft (numberAt bytes offset) 24)
      (shiftLeft (numberAt bytes (offset + 1)) 16))
    (shiftLeft (numberAt bytes (offset + 2)) 8))
    (numberAt bytes (offset + 3))

def word (w : List Int) (i : Nat) : Int := w.getD i 0

/-- The four bytes of a word of the result. -/
def resultBytes (h : Int) : List UInt8 :=
  [toByte (bitAnd (shiftRight h 24) 0xff),
   toByte (bitAnd (shiftRight h 16) 0xff),
   toByte (bitAnd (shiftRight h 8) 0xff), toByte (bitAnd h 0xff)]

structure Sha1Vars where
  a : Int
  b : Int
  c : Int
  d : Int
  e : Int
deriving DecidableEq, Repr

def sha1Words (bytes : List UInt8) (offset : Nat) : List Int :=
  (List.range 64).foldl (fun w n =>
    let i := n + 16
    w ++ [_leftRotate (bitXor (bitXor (bitXor (word w (i - 3)) (word w (i - 8)))
      (word w (i - 14))) (word w (i - 16))) 1])
    ((List.range 16).map fun i => wordAt bytes (offset + i * 4))

def sha1F (i : Nat) (b c d : Int) : Int :=
  if i < 20 then bitOr (bitAnd b c) (bitAnd (bitNot b) d)
  else if i < 40 then bitXor (bitXor b c) d
  else if i < 60 then bitOr (bitOr (bitAnd b c) (bitAnd b d)) (bitAnd c d)
  else bitXor (bitXor b c) d

def sha1K (i : Nat) : Int :=
  if i < 20 then 0x5A827999 else if i < 40 then 0x6ED9EBA1
  else if i < 60 then 0x8F1BBCDC else 0xCA62C1D6

def sha1Round (w : List Int) (v : Sha1Vars) (i : Nat) : Sha1Vars :=
  let temp := shiftRight
    (_leftRotate v.a 5 + sha1F i v.b v.c v.d + v.e + sha1K i + word w i) 0
  { a := temp, b := v.a, c := _leftRotate v.b 30, d := v.c, e := v.d }

def sha1Block (bytes : List UInt8) (h : Sha1Vars) (block : Nat) : Sha1Vars :=
  let w := sha1Words bytes (block * 64)
  let v := (List.range 80).foldl (sha1Round w) h
  { a := shiftRight (h.a + v.a) 0, b := shiftRight (h.b + v.b) 0
    c := shiftRight (h.c + v.c) 0, d := shiftRight (h.d + v.d) 0
    e := shiftRight (h.e + v.e) 0 }

def _sha1 (data : List UInt8) : List UInt8 :=
  let h := (List.range (totalBlocks data)).foldl (sha1Block (padded data))
    ⟨0x67452301, 0xEFCDAB89, 0x98BADCFE, 0x10325476, 0xC3D2E1F0⟩
  [h.a, h.b, h.c, h.d, h.e].flatMap resultBytes

def SHA256_K : List Int := [
  0x428A2F98, 0x71374491, 0xB5C0FBCF, 0xE9B5DBA5,
  0x3956C25B, 0x59F111F1, 0x923F82A4, 0xAB1C5ED5,
  0xD807AA98, 0x12835B01, 0x243185BE, 0x550C7DC3,
  0x72BE5D74, 0x80DEB1FE, 0x9BDC06A7, 0xC19BF174,
  0xE49B69C1, 0xEFBE4786, 0x0FC19DC6, 0x240CA1CC,
  0x2DE92C6F, 0x4A7484AA, 0x5CB0A9DC, 0x76F988DA,
  0x983E5152, 0xA831C66D, 0xB00327C8, 0xBF597FC7,
  0xC6E00BF3, 0xD5A79147, 0x06CA6351, 0x14292967,
  0x27B70A85, 0x2E1B2138, 0x4D2C6DFC, 0x53380D13,
  0x650A7354, 0x766A0ABB, 0x81C2C92E, 0x92722C85,
  0xA2BFE8A1, 0xA81A664B, 0xC24B8B70, 0xC76C51A3,
  0xD192E819, 0xD6990624, 0xF40E3585, 0x106AA070,
  0x19A4C116, 0x1E376C08, 0x2748774C, 0x34B0BCB5,
  0x391C0CB3, 0x4ED8AA4A, 0x5B9CCA4F, 0x682E6FF3,
  0x748F82EE, 0x78A5636F, 0x84C87814, 0x8CC70208,
  0x90BEFFFA, 0xA4506CEB, 0xBEF9A3F7, 0xC67178F2]

def _sha256_sigma0 (x : Int) : Int :=
  shiftRight (bitXor (bitXor (_rightRotate x 7) (_rightRotate x 18))
    (shiftRight x 3)) 0

def _sha256_sigma1 (x : Int) : Int :=
  shiftRight (bitXor (bitXor (_rightRotate x 17) (_rightRotate x 19))
    (shiftRight x 10)) 0

def _sha256_Sigma0 (x : Int) : Int :=
  shiftRight (bitXor (bitXor (_rightRotate x 2) (_rightRotate x 13))
    (_rightRotate x 22)) 0

def _sha256_Sigma1 (x : Int) : Int :=
  shiftRight (bitXor (bitXor (_rightRotate x 6) (_rightRotate x 11))
    (_rightRotate x 25)) 0

structure Sha256Vars where
  a : Int
  b : Int
  c : Int
  d : Int
  e : Int
  f : Int
  g : Int
  hh : Int
deriving DecidableEq, Repr

def sha256Words (bytes : List UInt8) (offset : Nat) : List Int :=
  (List.range 48).foldl (fun w n =>
    let i := n + 16
    w ++ [shiftRight (_sha256_sigma1 (word w (i - 2)) + word w (i - 7)
      + _sha256_sigma0 (word w (i - 15)) + word w (i - 16)) 0])
    ((List.range 16).map fun i => wordAt bytes (offset + i * 4))

def sha256Round (w : List Int) (v : Sha256Vars) (i : Nat) : Sha256Vars :=
  let t1 := shiftRight (v.hh + _sha256_Sigma1 v.e
    + bitXor (bitAnd v.e v.f) (bitAnd (bitNot v.e) v.g)
    + word SHA256_K i + word w i) 0
  let t2 := shiftRight (_sha256_Sigma0 v.a
    + bitXor (bitXor (bitAnd v.a v.b) (bitAnd v.a v.c)) (bitAnd v.b v.c)) 0
  { hh := v.g, g := v.f, f := v.e, e := shiftRight (v.d + t1) 0
    d := v.c, c := v.b, b := v.a, a := shiftRight (t1 + t2) 0 }

def sha256Block (bytes : List UInt8) (h : Sha256Vars) (block : Nat) :
    Sha256Vars :=
  let w := sha256Words bytes (block * 64)
  let v := (List.range 64).foldl (sha256Round w) h
  { a := shiftRight (h.a + v.a) 0, b := shiftRight (h.b + v.b) 0
    c := shiftRight (h.c + v.c) 0, d := shiftRight (h.d + v.d) 0
    e := shiftRight (h.e + v.e) 0, f := shiftRight (h.f + v.f) 0
    g := shiftRight (h.g + v.g) 0, hh := shiftRight (h.hh + v.hh) 0 }

def _sha256 (data : List UInt8) : List UInt8 :=
  let h := (List.range (totalBlocks data)).foldl (sha256Block (padded data))
    ⟨0x6A09E667, 0xBB67AE85, 0x3C6EF372, 0xA54FF53A,
     0x510E527F, 0x9B05688C, 0x1F83D9AB, 0x5BE0CD19⟩
  [h.a, h.b, h.c, h.d, h.e, h.f, h.g, h.hh].flatMap resultBytes

example : _sha1 [0x61, 0x62, 0x63]
    = [0xa9, 0x99, 0x3e, 0x36, 0x47, 0x06, 0x81, 0x6a, 0xba, 0x3e,
      0x25, 0x71, 0x78, 0x50, 0xc2, 0x6c, 0x9c, 0xd0, 0xd8, 0x9d] := by
  decide +kernel

end RemoteDesk.Totp
