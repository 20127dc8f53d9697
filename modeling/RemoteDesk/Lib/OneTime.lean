/-
One-time passwords (RFC 4226, RFC 6238).
-/
import RemoteDesk.Lib.SecureHash

namespace RemoteDesk.Lib

/-- Four bytes from where the last one points to, without the sign bit. -/
def dynamicTruncation (hs : List UInt8) : Nat :=
  let offset := (hs.getLastD 0).toNat % 16
  beNat ((hs.drop offset).take 4) % 2 ^ 31

/-- The code of a counter: `digits` decimal digits. -/
def hotp (mac : List UInt8 → List UInt8 → List UInt8) (digits : Nat)
    (key : List UInt8) (counter : Nat) : List Nat :=
  let value := dynamicTruncation (mac key (beBytes 8 counter)) % 10 ^ digits
  (fixedDigits 10 digits value).map (48 + ·)

/-- The code of a time: its counter is the number of whole periods. -/
def totp (mac : List UInt8 → List UInt8 → List UInt8) (digits period : Nat)
    (key : List UInt8) (seconds : Nat) : List Nat :=
  hotp mac digits key (seconds / period)

end RemoteDesk.Lib
