/-
The SHA-512 of the TOTP engine (services/TotpEngine.ets).

A 64-bit word is a pair of numbers, high half first. The tables hold 64 of
the 80 constants; what is read beyond them is no number (`none`), which a
sum carries on and a bit operation takes for zero.
-/
import RemoteDesk.Totp.Engine

namespace RemoteDesk.Totp

open Lib

abbrev Halves := Int × Int

def SHA512_K_HI : List Int := SHA256_K

def SHA512_K_LO : List Int := [
  0xD728AE22, 0x23EF65CD, 0xEC4D3B2F, 0x8189DBBC,
  0xF348B538, 0xB605D019, 0xAF194F9B, 0xDA6D8118,
  0xA3030242, 0x45706FBE, 0x4EE4B28C, 0xD5FFB4E2,
  0xF27B896F, 0x3B1696B1, 0x25C71235, 0xCF692694,
  0x9EF14AD2, 0x384F25E3, 0x8B8CD5B5, 0x77AC9C65,
  0x592B0275, 0x6EA6E483, 0xBD41FBD4, 0x831153B5,
  0xEE66DFAB, 0x2DB43210, 0x98FB213F, 0xBEEF0EE4,
  0x3DA88FC2, 0x930AA725, 0xE003826F, 0x0A0E6E70,
  0x46D22FFC, 0x5C26C926, 0x5AC42AED, 0x9D95B3DF,
  0x8BAF63DE, 0x3C77B2A8, 0x47EDAEE6, 0x1482353B,
  0x4CF10364, 0xBC423001, 0xD0F89791, 0x0654BE30,
  0xD6EF5218, 0x5565A910, 0x5771202A, 0x32BBD8B8,
  0x2B0BFC9C, 0x270F25A6, 0x2E1B2138, 0x4D2C6DFC,
  0x53380D13, 0x650A7354, 0x766A0ABB, 0x81C2C92E,
  0x92722C85, 0xA2BFE8A1, 0xA81A664B, 0xC24B8B70,
  0xC76C51A3, 0xD192E819, 0xD6990624, 0xF40E3585]

def _add64 (a : Halves) (bhi blo : Option Int) : Halves :=
  let b := blo.getD 0
  let lo := shiftRight (bitAnd a.2 0xFFFF + bitAnd b 0xFFFF) 0
  let carryLo := shiftRight lo 16
  let lo16 := bitAnd lo 0xFFFF
  let loMid := shiftRight (shiftRight a.2 16 + shiftRight b 16 + carryLo) 0
  let carryMid := shiftRight loMid 16
  let loFinal := bitOr (shiftLeft (bitAnd loMid 0xFFFF) 16) lo16
  let hi := match bhi with
    | none => 0
    | some bhi => shiftRight (a.1 + bhi + carryMid) 0
  (hi, shiftRight loFinal 0)

/-- The sum of two words that are there. -/
def sum64 (a b : Halves) : Halves := _add64 a (some b.1) (some b.2)

def _rightRotate64 (x : Halves) (n : Int) : Halves :=
  (shiftRight (bitOr (shiftRight x.1 n) (shiftLeft x.2 (32 - n))) 0,
   shiftRight (bitOr (shiftRight x.2 n) (shiftLeft x.1 (32 - n))) 0)

def _shr64 (x : Halves) (n : Int) : Halves :=
  (shiftRight (shiftRight x.1 n) 0,
   shiftRight (bitOr (shiftRight x.2 n) (shiftLeft x.1 (32 - n))) 0)

def _xor3_64 (a b c : Halves) : Halves :=
  (shiftRight (bitXor (bitXor a.1 b.1) c.1) 0,
   shiftRight (bitXor (bitXor a.2 b.2) c.2) 0)

def _sha512_sigma0 (x : Halves) : Halves :=
  _xor3_64 (_rightRotate64 x 1) (_rightRotate64 x 8) (_shr64 x 7)

def _sha512_sigma1 (x : Halves) : Halves :=
  _xor3_64 (_rightRotate64 x 19) (_rightRotate64 x 61) (_shr64 x 6)

def _sha512_Sigma0 (x : Halves) : Halves :=
  _xor3_64 (_rightRotate64 x 28) (_rightRotate64 x 34) (_rightRotate64 x 39)

def _sha512_Sigma1 (x : Halves) : Halves :=
  _xor3_64 (_rightRotate64 x 14) (_rightRotate64 x 18) (_rightRotate64 x 41)

def _majority64 (a b c : Halves) : Halves :=
  (shiftRight (bitXor (bitXor (bitAnd a.1 b.1) (bitAnd a.1 c.1))
      (bitAnd b.1 c.1)) 0,
   shiftRight (bitXor (bitXor (bitAnd a.2 b.2) (bitAnd a.2 c.2))
      (bitAnd b.2 c.2)) 0)

def _choose64 (e f g : Halves) : Halves :=
  (shiftRight (bitXor (bitAnd e.1 f.1) (bitAnd (bitNot e.1) g.1)) 0,
   shiftRight (bitXor (bitAnd e.2 f.2) (bitAnd (bitNot e.2) g.2)) 0)

def padded512 (data : List UInt8) : List UInt8 :=
  let msgLenHi : Int := (data.length / 0x20000000 : Nat)
  let msgLenLo := shiftRight (data.length * 8) 0
  let paddedLen := data.length + 1
  let totalBlocks := (paddedLen + 16 + 127) / 128
  let totalLen := totalBlocks * 128
  let bytes := (setBytes (List.replicate totalLen 0) data 0).set data.length
    0x80
  let bytes := (bytes.set (totalLen - 1) (toByte (bitAnd msgLenLo 0xFF)))
    |>.set (totalLen - 2) (toByte (bitAnd (shiftRight msgLenLo 8) 0xFF))
    |>.set (totalLen - 3) (toByte (bitAnd (shiftRight msgLenLo 16) 0xFF))
    |>.set (totalLen - 4) (toByte (bitAnd (shiftRight msgLenLo 24) 0xFF))
  (bytes.set (totalLen - 5) (toByte (bitAnd msgLenHi 0xFF)))
    |>.set (totalLen - 6) (toByte (bitAnd (shiftRight msgLenHi 8) 0xFF))
    |>.set (totalLen - 7) (toByte (bitAnd (shiftRight msgLenHi 16) 0xFF))
    |>.set (totalLen - 8) (toByte (bitAnd (shiftRight msgLenHi 24) 0xFF))

def word64 (w : List Halves) (i : Nat) : Halves := w.getD i (0, 0)

def sha512Words (bytes : List UInt8) (off : Nat) : List Halves :=
  (List.range 64).foldl (fun w n =>
    let i := n + 16
    let s0 := _sha512_sigma0 (word64 w (i - 15))
    let s1 := _sha512_sigma1 (word64 w (i - 2))
    let sum := sum64 (word64 w (i - 16)) (word64 w (i - 7))
    w ++ [sum64 (sum64 sum s0) s1])
    ((List.range 16).map fun i =>
      (wordAt bytes (off + i * 8), wordAt bytes (off + i * 8 + 4)))

structure Sha512Vars where
  a : Halves
  b : Halves
  c : Halves
  d : Halves
  e : Halves
  f : Halves
  g : Halves
  h : Halves
deriving DecidableEq, Repr

def sha512Round (w : List Halves) (v : Sha512Vars) (i : Nat) : Sha512Vars :=
  let t1a := sum64 v.h (_sha512_Sigma1 v.e)
  let t1b := sum64 t1a (_choose64 v.e v.f v.g)
  let t1c := _add64 t1b SHA512_K_HI[i]? SHA512_K_LO[i]?
  let t1 := sum64 t1c (word64 w i)
  let t2a := sum64 (_sha512_Sigma0 v.a) (_majority64 v.a v.b v.c)
  { h := v.g, g := v.f, f := v.e, e := sum64 v.d t1
    d := v.c, c := v.b, b := v.a, a := sum64 t1 t2a }

/-- The halves of the result are added each for itself. -/
def addHalves (x y : Halves) : Halves :=
  (shiftRight (x.1 + y.1) 0, shiftRight (x.2 + y.2) 0)

def sha512Block (bytes : List UInt8) (h : Sha512Vars) (block : Nat) :
    Sha512Vars :=
  let w := sha512Words bytes (block * 128)
  let v := (List.range 80).foldl (sha512Round w) h
  { a := addHalves h.a v.a, b := addHalves h.b v.b, c := addHalves h.c v.c
    d := addHalves h.d v.d, e := addHalves h.e v.e, f := addHalves h.f v.f
    g := addHalves h.g v.g, h := addHalves h.h v.h }

def SHA512_INIT : Sha512Vars :=
  { a := (0x6A09E667, 0xF3BCC908), b := (0xBB67AE85, 0x84CAA73B)
    c := (0x3C6EF372, 0xFE94F82B), d := (0xA54FF53A, 0x5F1D36F1)
    e := (0x510E527F, 0xADE682D1), f := (0x9B05688C, 0x2B3E6C1F)
    g := (0x1F83D9AB, 0xFB41BD6B), h := (0x5BE0CD19, 0x137E2179) }

def _sha512 (data : List UInt8) : List UInt8 :=
  let totalBlocks := (data.length + 1 + 16 + 127) / 128
  let h := (List.range totalBlocks).foldl (sha512Block (padded512 data))
    SHA512_INIT
  [h.a, h.b, h.c, h.d, h.e, h.f, h.g, h.h].flatMap fun x =>
    resultBytes x.1 ++ resultBytes x.2

end RemoteDesk.Totp
