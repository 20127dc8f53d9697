/-
The hash functions of FIPS 180-4 on bytes, and keyed hashing (RFC 2104).

A message is padded to whole blocks of sixteen words (`padding`), and a
compression function folds the blocks into a state (`hashBlocks`). The
length field holds the length modulo 2^64; the standard asks for less.
The constants of SHA-256 are the roots the standard takes them from.
-/
import RemoteDesk.Lib.BigEndian
import RemoteDesk.Lib.Words

namespace RemoteDesk.Lib

-- ================================== blocks

/-- What follows a message of `length` bytes. -/
def padding (length : Nat) : List UInt8 :=
  0x80 :: List.replicate ((119 - length % 64) % 64) 0
    ++ beBytes 8 (8 * length)

/-- The `i`th word of a padded message. -/
def blockWord (bytes : List UInt8) (i : Nat) : Word :=
  BitVec.ofNat 32 (beNat ((bytes.drop (4 * i)).take 4))

def hashBlocks {S : Type} (compress : S → (Nat → Word) → S) (start : S)
    (bytes : List UInt8) : S :=
  (List.range (bytes.length / 64)).foldl
    (fun H i => compress H fun t => blockWord bytes (16 * i + t)) start

def wordBytes (w : Word) : List UInt8 := beBytes 4 w.toNat

def choose (x y z : Word) : Word := (x &&& y) ^^^ (~~~x &&& z)

def parity (x y z : Word) : Word := x ^^^ y ^^^ z

def majority (x y z : Word) : Word := (x &&& y) ^^^ (x &&& z) ^^^ (y &&& z)

-- =================================== SHA-1

structure Sha1State where
  a : Word
  b : Word
  c : Word
  d : Word
  e : Word
deriving DecidableEq, Repr

variable {M : Nat → Word} {t : Nat}

namespace Sha1

def start : Sha1State :=
  ⟨0x67452301, 0xefcdab89, 0x98badcfe, 0x10325476, 0xc3d2e1f0⟩

def f (t : Nat) : Word → Word → Word → Word :=
  if t < 20 then choose else if t < 40 then parity
  else if t < 60 then majority else parity

def K (t : Nat) : Word :=
  if t < 20 then 0x5a827999 else if t < 40 then 0x6ed9eba1
  else if t < 60 then 0x8f1bbcdc else 0xca62c1d6

def W (M : Nat → Word) (t : Nat) : Word :=
  if t < 16 then M t
  else (W M (t - 3) ^^^ W M (t - 8) ^^^ W M (t - 14)
    ^^^ W M (t - 16)).rotateLeft 1
termination_by t

theorem W_of_lt (h : t < 16) : W M t = M t := by
  rw [W, if_pos h]

theorem W_of_ge (h : 16 ≤ t) :
    W M t = (W M (t - 3) ^^^ W M (t - 8) ^^^ W M (t - 14)
      ^^^ W M (t - 16)).rotateLeft 1 := by
  rw [W, if_neg (Nat.not_lt.mpr h)]

def step (M : Nat → Word) (s : Sha1State) (t : Nat) : Sha1State :=
  { a := s.a.rotateLeft 5 + f t s.b s.c s.d + s.e + K t + W M t
    b := s.a
    c := s.b.rotateLeft 30
    d := s.c
    e := s.d }

def compress (H : Sha1State) (M : Nat → Word) : Sha1State :=
  let s := (List.range 80).foldl (step M) H
  ⟨H.a + s.a, H.b + s.b, H.c + s.c, H.d + s.d, H.e + s.e⟩

end Sha1

def sha1 (message : List UInt8) : List UInt8 :=
  let H := hashBlocks Sha1.compress Sha1.start
    (message ++ padding message.length)
  [H.a, H.b, H.c, H.d, H.e].flatMap wordBytes

-- ================================= SHA-256

structure Sha256State where
  a : Word
  b : Word
  c : Word
  d : Word
  e : Word
  f : Word
  g : Word
  h : Word
deriving DecidableEq, Repr

namespace Sha256

/-- The first 64 primes: what is below 18^2 and has no divisor below 18. -/
def primes : List Nat :=
  (List.range 312).filter fun p =>
    2 ≤ p && (List.range 18).all fun d => d < 2 || p ≤ d || p % d != 0

/-- The first 32 bits of the fraction of the `k`th root. -/
def rootFraction (k p : Nat) : Word :=
  BitVec.ofNat 32 (Nat.nthRoot k (p * 2 ^ (32 * k)))

def K (t : Nat) : Word := rootFraction 3 (primes.getD t 0)

def start : Sha256State :=
  let root (i : Nat) : Word := rootFraction 2 (primes.getD i 0)
  ⟨root 0, root 1, root 2, root 3, root 4, root 5, root 6, root 7⟩

def bigSigma0 (x : Word) : Word :=
  x.rotateRight 2 ^^^ x.rotateRight 13 ^^^ x.rotateRight 22

def bigSigma1 (x : Word) : Word :=
  x.rotateRight 6 ^^^ x.rotateRight 11 ^^^ x.rotateRight 25

def sigma0 (x : Word) : Word :=
  x.rotateRight 7 ^^^ x.rotateRight 18 ^^^ x >>> 3

def sigma1 (x : Word) : Word :=
  x.rotateRight 17 ^^^ x.rotateRight 19 ^^^ x >>> 10

def W (M : Nat → Word) (t : Nat) : Word :=
  if t < 16 then M t
  else sigma1 (W M (t - 2)) + W M (t - 7) + sigma0 (W M (t - 15))
    + W M (t - 16)
termination_by t

theorem W_of_lt (h : t < 16) : W M t = M t := by
  rw [W, if_pos h]

theorem W_of_ge (h : 16 ≤ t) :
    W M t = sigma1 (W M (t - 2)) + W M (t - 7) + sigma0 (W M (t - 15))
      + W M (t - 16) := by
  rw [W, if_neg (Nat.not_lt.mpr h)]

def step (M : Nat → Word) (s : Sha256State) (t : Nat) : Sha256State :=
  let T1 := s.h + bigSigma1 s.e + choose s.e s.f s.g + K t + W M t
  let T2 := bigSigma0 s.a + majority s.a s.b s.c
  { a := T1 + T2, b := s.a, c := s.b, d := s.c
    e := s.d + T1, f := s.e, g := s.f, h := s.g }

def compress (H : Sha256State) (M : Nat → Word) : Sha256State :=
  let s := (List.range 64).foldl (step M) H
  ⟨H.a + s.a, H.b + s.b, H.c + s.c, H.d + s.d, H.e + s.e, H.f + s.f,
    H.g + s.g, H.h + s.h⟩

end Sha256

def sha256 (message : List UInt8) : List UInt8 :=
  let H := hashBlocks Sha256.compress Sha256.start
    (message ++ padding message.length)
  [H.a, H.b, H.c, H.d, H.e, H.f, H.g, H.h].flatMap wordBytes

-- ==================================== HMAC

/-- The key of one block: a long key is hashed first. -/
def blockKey (hash : List UInt8 → List UInt8) (blockSize : Nat)
    (key : List UInt8) : List UInt8 :=
  let short := if key.length > blockSize then hash key else key
  short ++ List.replicate (blockSize - short.length) 0

def hmac (hash : List UInt8 → List UInt8) (blockSize : Nat)
    (key message : List UInt8) : List UInt8 :=
  let key := blockKey hash blockSize key
  hash (key.map (· ^^^ 0x5c) ++ hash (key.map (· ^^^ 0x36) ++ message))

end RemoteDesk.Lib
