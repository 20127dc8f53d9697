/-
Moonlight records (model/MoonlightRecord.ets).

The single-table envelope. Texts are UTF-16 units; numbers are integers
(a fraction passes no validation, and nothing is computed before one).
A record type that is not known keeps its text. `toJSON` and `fromJSON`
copy every field, so a clone is the record itself (`cloneRecord_eq`).
-/
import RemoteDesk.Lib.Json

namespace RemoteDesk.Moonlight

open Lib

inductive MoonlightRecordType where
  | settings
  | host
  | profile
  | trust
  | secret
  | other (name : Text)
deriving DecidableEq, Repr

inductive MoonlightOwnerType where
  | account
  | host
  | profile
  | none
  | other (name : Text)
deriving DecidableEq, Repr

inductive MoonlightSecretKind where
  | clientIdentity
  | none
  | other (name : Text)
deriving DecidableEq, Repr

def MOONLIGHT_SCHEMA_VERSION : Int := 1

structure MoonlightRecord where
  id : Text := []
  userId : Text := []
  recordType : MoonlightRecordType := .settings
  ownerId : Text := []
  ownerType : MoonlightOwnerType := .account
  secretKind : MoonlightSecretKind := .none
  payload : Text := codes "{}"
  ciphertext : Text := []
  envelopeVersion : Int := 0
  cryptoVersion : Int := 0
  keyVersion : Int := 0
  aadVersion : Int := 0
  payloadHashSha256 : Text := []
  syncVersion : Int := 0
  schemaVersion : Int := MOONLIGHT_SCHEMA_VERSION
  resetEpoch : Int := 0
  createdAt : Int := 0
  updatedAt : Int := 0
  deletedAt : Int := 0
deriving DecidableEq, Repr

/-- The text of a record type. -/
def MoonlightRecordType.name : MoonlightRecordType → Text
  | .settings => codes "settings"
  | .host => codes "host"
  | .profile => codes "profile"
  | .trust => codes "trust"
  | .secret => codes "secret"
  | .other name => name

def moonlightExpectedOwnerType : MoonlightRecordType → MoonlightOwnerType
  | .profile => .host
  | .trust => .host
  | _ => .account

def moonlightExpectedSecretKind : MoonlightRecordType → MoonlightSecretKind
  | .secret => .clientIdentity
  | _ => .none

/-- `MoonlightRecord.fromJSON(source.toJSON())`. -/
def cloneRecord (source : MoonlightRecord) : MoonlightRecord where
  id := source.id
  userId := source.userId
  recordType := source.recordType
  ownerId := source.ownerId
  ownerType := source.ownerType
  secretKind := source.secretKind
  payload := source.payload
  ciphertext := source.ciphertext
  envelopeVersion := source.envelopeVersion
  cryptoVersion := source.cryptoVersion
  keyVersion := source.keyVersion
  aadVersion := source.aadVersion
  payloadHashSha256 := source.payloadHashSha256
  syncVersion := source.syncVersion
  schemaVersion := source.schemaVersion
  resetEpoch := source.resetEpoch
  createdAt := source.createdAt
  updatedAt := source.updatedAt
  deletedAt := source.deletedAt

@[simp] theorem cloneRecord_eq (source : MoonlightRecord) :
    cloneRecord source = source := rfl

end RemoteDesk.Moonlight
