/-
Which Moonlight records are valid (services/MoonlightRecordPolicy.ets).

`Platform` holds what comes from outside: normalisation, the digest, the
base64 coder, and the comparison of a fraction with bounds. Payloads are
read with `JSON.parse`; a script object is its members, where a member
`__proto__` that is assigned does not become one.

A number of the metadata that is no integer is read as -1, which the checks
refuse as they refuse a fraction.
-/
import RemoteDesk.Lib.BigEndian
import RemoteDesk.Moonlight.CanonicalJson
import RemoteDesk.Moonlight.Models

namespace RemoteDesk.Moonlight

open Lib

def MOONLIGHT_PAYLOAD_MAX_BYTES : Nat := 64 * 1024
def MOONLIGHT_CIPHERTEXT_MAX_BYTES : Nat := 128 * 1024
def MOONLIGHT_TOMBSTONE_PAYLOAD : Text := codes "\x7b\x7d"

structure Platform (D : Type) where
  normalizer : Normalizer
  /-- `createMd('SHA256')`. -/
  digest : List UInt8 → List UInt8
  /-- `decodeSync`, unless it throws. -/
  decodeBase64 : Text → Option (List UInt8)
  encodeBase64 : List UInt8 → Text
  /-- A number from 0 to 1. -/
  inUnit : D → Bool

structure MoonlightRecordMeta where
  mutationId : Text
  originId : Text
  baseSyncVersion : Int
  fieldVersions : List (Text × Int)
deriving DecidableEq, Repr

-- ============================= field paths

def FORBIDDEN_SECRET_KEYS : List String := [
  "pin", "password", "privatekey", "private_key", "token", "sessiontoken",
  "rikey", "rikeyid", "localsecurestoreref", "keyalias", "alias"]

def SETTINGS_FIELD_PATHS : List String := [
  "video.codecPreference", "video.resolutionMode", "video.adaptiveResolution",
  "video.customWidth", "video.customHeight",
  "video.fps", "video.bitrateKbps", "video.hdr", "video.yuv444",
  "video.latencyMode",
  "audio.enabled", "audio.channels", "audio.volume", "audio.playOnHost",
  "input.touchMode", "input.controlMode", "input.keyboardTarget",
  "input.captureKeyboard", "input.forwardSystemShortcuts",
  "input.controllerSlot", "input.enableRumble", "network.discovery",
  "network.preferredAddressFamily", "network.streamEncryption",
  "network.allowLegacySha1",
  "network.meteredNetwork", "network.autoReconnect",
  "network.reconnectBudgetMs",
  "background.allowAudioInBackground", "background.noSurfaceVideo",
  "security.blockCertificateChanges", "security.identityStorage",
  "diagnostics.showPerformanceHud", "diagnostics.logLevel"]

/-- Still read, never written. -/
def LEGACY_SETTINGS_FIELD_PATHS : List String := [
  "video.scalingMode", "background.allowPip"]

def HOST_FIELD_PATHS : List String := [
  "displayName", "addresses", "preferredAddressKey", "httpsPort",
  "wakeOnLan", "locked", "userOrder"]

def PROFILE_FIELD_PATHS : List String := [
  "titleSnapshot", "streamOverrides.codecPreference",
  "streamOverrides.resolutionMode",
  "streamOverrides.adaptiveResolution",
  "streamOverrides.customWidth", "streamOverrides.customHeight",
  "streamOverrides.fps",
  "streamOverrides.bitrateKbps", "streamOverrides.hdr",
  "streamOverrides.latencyMode",
  "streamOverrides.scalingMode", "inputOverrides.touchMode",
  "inputOverrides.captureKeyboard", "inputOverrides.controllerSlot",
  "favorite", "userOrder"]

def allowedFieldPaths : MoonlightRecordType → List Text
  | .settings => SETTINGS_FIELD_PATHS.map codes
  | .host => HOST_FIELD_PATHS.map codes
  | .profile => PROFILE_FIELD_PATHS.map codes
  | _ => []

def readableFieldPaths (recordType : MoonlightRecordType) : List Text :=
  if recordType ≠ .settings then allowedFieldPaths recordType
  else allowedFieldPaths recordType
    ++ LEGACY_SETTINGS_FIELD_PATHS.map codes

def isNonNegativeInteger (value : Int) : Bool :=
  isSafeInteger value && 0 ≤ value

/-- A check of the metadata against the field paths it may name. -/
def metaIsValid (allowed : List Text) (md : MoonlightRecordMeta) : Bool :=
  isBoundedText md.mutationId 1 128 && isBoundedText md.originId 1 128
    && isNonNegativeInteger md.baseSyncVersion
    && md.fieldVersions.length ≤ allowed.length
    && md.fieldVersions.all fun p =>
      allowed.contains p.1 && isNonNegativeInteger p.2

def moonlightRecordMetaIsValid (md : MoonlightRecordMeta)
    (recordType : MoonlightRecordType) : Bool :=
  metaIsValid (readableFieldPaths recordType) md

def moonlightRecordMetaIsValidForWrite (md : MoonlightRecordMeta)
    (recordType : MoonlightRecordType) : Bool :=
  metaIsValid (allowedFieldPaths recordType) md

-- =================================== bytes

/-- The UTF-8 of a text; a surrogate without its partner is replaced. -/
def utf8Units : Text → List UInt8
  | [] => []
  | u :: rest =>
    if isHigh u then
      match rest with
      | v :: rest' =>
        if isLow v then
          let c := 0x10000 + (u - 0xd800) * 1024 + (v - 0xdc00)
          [UInt8.ofNat (0xf0 + c / 262144),
            UInt8.ofNat (0x80 + c / 4096 % 64),
            UInt8.ofNat (0x80 + c / 64 % 64),
            UInt8.ofNat (0x80 + c % 64)] ++ utf8Units rest'
        else [0xef, 0xbf, 0xbd] ++ utf8Units (v :: rest')
      | [] => [0xef, 0xbf, 0xbd]
    else if isLow u then [0xef, 0xbf, 0xbd] ++ utf8Units rest
    else if u < 0x80 then UInt8.ofNat u :: utf8Units rest
    else if u < 0x800 then
      [UInt8.ofNat (0xc0 + u / 64), UInt8.ofNat (0x80 + u % 64)]
        ++ utf8Units rest
    else
      [UInt8.ofNat (0xe0 + u / 4096), UInt8.ofNat (0x80 + u / 64 % 64),
        UInt8.ofNat (0x80 + u % 64)] ++ utf8Units rest
termination_by structural text => text

def bigEndian64 (value : Int) : List UInt8 := beBytes 8 value.toNat

section Policy

variable {D : Type} [JsNumber D] (P : Platform D)

def sha256Hex (bytes : List UInt8) : Text :=
  (P.digest bytes).flatMap fun b =>
    [digitCode (b.toNat / 16), digitCode (b.toNat % 16)]

/-- `/^[A-Za-z0-9_-]+$/` of one unit. -/
def isBase64UrlCode (u : Nat) : Bool :=
  Endpoint.isAsciiAlnum u || u = 95 || u = 45

def decodeCanonicalBase64Url (value : Text) : Option (List UInt8) :=
  if value.length = 0 ∨ value.length > MOONLIGHT_CIPHERTEXT_MAX_BYTES * 2
      ∨ !value.all isBase64UrlCode ∨ value.length % 4 = 1 then none
  else
    let padded := value.map (fun u =>
        if u = 45 then 43 else if u = 95 then 47 else u)
      ++ List.replicate ((4 - value.length % 4) % 4) 61
    match P.decodeBase64 padded with
    | none => none
    | some decoded =>
      let encoded := ((P.encodeBase64 decoded).filter (· ≠ 61)).map fun u =>
        if u = 43 then 45 else if u = 47 then 95 else u
      if encoded = value then some decoded else none

/-- Empty when the ciphertext of a secret cannot be read. -/
def moonlightRecordPayloadHashSha256 (record : MoonlightRecord) : Text :=
  if record.deletedAt > 0 then
    sha256Hex P (utf8Units (codes "moonlight-tombstone-v1") ++ [0]
      ++ utf8Units record.id ++ [0] ++ bigEndian64 record.resetEpoch
      ++ bigEndian64 record.syncVersion ++ bigEndian64 record.deletedAt)
  else if record.recordType = .secret then
    match decodeCanonicalBase64Url P record.ciphertext with
    | none => []
    | some decoded =>
      sha256Hex P (utf8Units (codes "moonlight-secret-v1") ++ [0]
        ++ utf8Units record.payload ++ [0] ++ decoded)
  else
    sha256Hex P (utf8Units (codes "moonlight-live-v1") ++ [0]
      ++ utf8Units record.recordType.name ++ [0] ++ utf8Units record.payload)

-- ================================ payloads

def payloadObject (payload : Text) : Option (List (Text × Json D)) :=
  match (parse payload : Option (Json D)) with
  | some (.obj members) => some members
  | _ => none

def metaKey : Text := codes "_meta"

/-- The numbers of an object that holds nothing else. -/
def versionsOf : List (Text × Json D) → Option (List (Text × Int))
  | [] => some []
  | (key, .num d) :: rest => (versionsOf rest).map fun versions =>
    if key = proto then versions
    else (key, (JsNumber.toInt d).getD (-1)) :: versions
  | _ :: _ => none

def extractMeta (values : List (Text × Json D)) :
    Option MoonlightRecordMeta :=
  match Members.lookup metaKey values with
  | some (.obj raw) =>
    match Members.lookup (codes "mutationId") raw,
        Members.lookup (codes "originId") raw,
        Members.lookup (codes "baseSyncVersion") raw,
        Members.lookup (codes "fieldVersions") raw with
    | some (.str mutationId), some (.str originId), some (.num base),
        some (.obj rawVersions) =>
          (versionsOf rawVersions).map fun fieldVersions => {
            mutationId, originId, fieldVersions
            baseSyncVersion := (JsNumber.toInt base).getD (-1) }
    | _, _, _, _ => none
  | _ => none

/-- A member that is passed on by `businessPayload`. -/
def isBusinessKey (key : Text) : Bool := key ≠ metaKey && key ≠ proto

def businessPayload (values : List (Text × Json D)) :
    List (Text × Json D) :=
  values.filter fun p => isBusinessKey p.1

/-- The metadata as a member. -/
def encodedMeta (md : MoonlightRecordMeta) : Json D :=
  .obj [(codes "baseSyncVersion", .num (JsNumber.ofInt md.baseSyncVersion)),
    (codes "fieldVersions", .obj (md.fieldVersions.map fun p =>
      (p.1, .num (JsNumber.ofInt p.2)))),
    (codes "mutationId", .str md.mutationId),
    (codes "originId", .str md.originId)]

def moonlightPayloadWithMeta (business : List (Text × Json D))
    (md : MoonlightRecordMeta) (recordType : MoonlightRecordType) :
    Except MoonlightQuarantineReason Text :=
  if Members.lookup metaKey business ≠ none
      ∨ !moonlightRecordMetaIsValidForWrite md recordType then
    .error .invalidMeta
  else
    let values := business.filter fun p => p.1 ≠ proto
    moonlightCanonicalizeJson P.normalizer D
      (Json.obj (Members.put metaKey (encodedMeta md) values)).text

def moonlightRecordMeta (D : Type) [JsNumber D] (record : MoonlightRecord) :
    Option MoonlightRecordMeta :=
  if record.deletedAt > 0 then none
  else match (payloadObject record.payload
      : Option (List (Text × Json D))) with
  | none => none
  | some values => extractMeta values

def moonlightRecordBusinessPayload (record : MoonlightRecord) :
    Option (List (Text × Json D)) :=
  if record.deletedAt > 0 then none
  else (payloadObject record.payload).map businessPayload

-- =============================== semantics

/-- A key without what is neither letter, digit nor underscore. -/
def normalizedSecretKey (key : Text) : Text :=
  (key.filter fun u => Endpoint.isAsciiAlnum u || u = 95).map
    Endpoint.asciiLower

mutual

def secretValueIsSafe (depth : Nat) : Json D → Bool
  | .arr values => depth ≤ 32 && secretItemsAreSafe (depth + 1) values
  | .obj source => depth ≤ 32 && secretMembersAreSafe (depth + 1) source
  | _ => depth ≤ 32
termination_by structural value => value

def secretItemsAreSafe (depth : Nat) : List (Json D) → Bool
  | [] => true
  | value :: rest =>
    secretValueIsSafe depth value && secretItemsAreSafe depth rest
termination_by structural values => values

def secretMembersAreSafe (depth : Nat) : List (Text × Json D) → Bool
  | [] => true
  | (key, value) :: rest =>
    !(FORBIDDEN_SECRET_KEYS.map codes).contains (normalizedSecretKey key)
      && secretValueIsSafe depth value && secretMembersAreSafe depth rest
termination_by structural source => source

end

def secretMetadataIsSafe (values : List (Text × Json D)) : Bool :=
  secretValueIsSafe 0 (.obj values)

def keysAreAllowed (values : List (Text × Json D)) (allowed : List String) :
    Bool :=
  values.all fun p => (allowed.map codes).contains p.1

def settingsPayloadIsValid (values : List (Text × Json D)) : Bool :=
  keysAreAllowed values ["schemaVersion", "video", "audio", "input",
      "network", "background", "security", "diagnostics", "_meta"]
    && moonlightSettingsAreValid P.inUnit (businessPayload values)

def hostPayloadIsValid (record : MoonlightRecord)
    (values : List (Text × Json D)) : Bool :=
  let field (name : String) := Members.lookup (codes name) values
  keysAreAllowed values ["schemaVersion", "serverUuid", "displayName",
      "addresses", "preferredAddressKey", "httpsPort", "hostType",
      "wakeOnLan", "locked", "userOrder", "_meta"]
    && isNumber 1 (field "schemaVersion")
    && isPlainObject (field "wakeOnLan")
    && optional isBoolean (field "locked")
    && optional (inRange 1 65535) (field "httpsPort")
    && match field "addresses", field "wakeOnLan" with
      | some (.arr addresses), some wakeOnLan => moonlightHostIsValid {
          id := record.id
          serverUuid := field "serverUuid"
          displayName := field "displayName"
          addresses
          preferredAddressKey := field "preferredAddressKey"
          httpsPort := (field "httpsPort").getD
            (.num (JsNumber.ofInt MOONLIGHT_DEFAULT_HTTPS_PORT))
          hostType := field "hostType"
          wakeOnLan
          userOrder := field "userOrder" }
      | _, _ => false

def profilePayloadIsValid (record : MoonlightRecord)
    (values : List (Text × Json D)) : Bool :=
  let field (name : String) := Members.lookup (codes name) values
  keysAreAllowed values ["schemaVersion", "hostId", "appId",
      "titleSnapshot", "streamOverrides", "inputOverrides", "favorite",
      "userOrder", "_meta"]
    && isNumber 1 (field "schemaVersion")
    && isBoolean (field "favorite")
    && match field "streamOverrides", field "inputOverrides" with
      | some (.obj streamOverrides), some (.obj inputOverrides) =>
        moonlightProfileIsValid {
          id := record.id
          hostId := field "hostId"
          appId := field "appId"
          titleSnapshot := field "titleSnapshot"
          streamOverrides
          inputOverrides
          favorite := field "favorite"
          userOrder := field "userOrder" }
      | _, _ => false

def isText (text : Text) : Option (Json D) → Bool
  | some (.str value) => value = text
  | _ => false

def trustPayloadIsValid (record : MoonlightRecord)
    (values : List (Text × Json D)) : Bool :=
  let field (name : String) := Members.lookup (codes name) values
  keysAreAllowed values ["schemaVersion", "hostId", "serverUuid",
      "serverCertificateSha256", "pairingGeneration",
      "candidateObservedAt", "_meta"]
    && isNumber 1 (field "schemaVersion")
    && isText record.ownerId (field "hostId")
    && moonlightTrustCandidateIsValid {
        hostId := field "hostId"
        serverUuid := field "serverUuid"
        serverCertificateSha256 := field "serverCertificateSha256"
        pairingGeneration := field "pairingGeneration"
        candidateObservedAt := field "candidateObservedAt" }

def nonNegative (value : Option (Json D)) : Bool :=
  (safeInteger value).any (0 ≤ ·)

def secretPayloadIsValid (values : List (Text × Json D)) : Bool :=
  let field (name : String) := Members.lookup (codes name) values
  keysAreAllowed values ["schemaVersion", "identityVersion",
      "certificateSha256", "ownerScopeFingerprint", "storageMode",
      "recoveryState", "createdAt", "rotatedAt", "_meta"]
    && isNumber 1 (field "schemaVersion")
    && (safeInteger (field "identityVersion")).any (1 ≤ ·)
    && isSha256Text (field "certificateSha256")
    && isText (codes "cloudEncryptedPending") (field "storageMode")
    && optional isSha256Text (field "ownerScopeFingerprint")
    && optional (isBoundedTextValue · 1 64) (field "recoveryState")
    && optional nonNegative (field "createdAt")
    && optional nonNegative (field "rotatedAt")
    && secretMetadataIsSafe values

def recordPayloadSemanticsAreValid (record : MoonlightRecord)
    (values : List (Text × Json D)) : Bool :=
  match record.recordType with
  | .settings => settingsPayloadIsValid P values
  | .host => hostPayloadIsValid record values
  | .profile => profilePayloadIsValid record values
  | .trust => trustPayloadIsValid record values
  | .secret => secretPayloadIsValid values
  | .other _ => false

def recordReferencesAreValid (record : MoonlightRecord)
    (values : List (Text × Json D)) : Bool :=
  match record.recordType with
  | .settings => record.ownerId = record.userId
  | .host => record.ownerId = record.userId
      && match Members.lookup (codes "serverUuid") values with
        | some (.str _) => true
        | _ => false
  | .profile | .trust =>
    isText record.ownerId (Members.lookup (codes "hostId") values)
  | .secret => record.ownerId = record.userId
  | .other _ => false

-- ============================== validation

def recordTypeKnown : MoonlightRecordType → Bool
  | .other _ => false
  | _ => true

def ownerTypeKnown : MoonlightOwnerType → Bool
  | .other _ => false
  | _ => true

def secretKindKnown : MoonlightSecretKind → Bool
  | .other _ => false
  | _ => true

def validateEnvelope (record : MoonlightRecord) :
    MoonlightQuarantineReason :=
  if !isBoundedText record.id 1 128 ∨ !isBoundedText record.userId 1 128
      ∨ !isBoundedText record.ownerId 1 128
      ∨ !recordTypeKnown record.recordType
      ∨ !ownerTypeKnown record.ownerType
      ∨ !secretKindKnown record.secretKind
      ∨ !isNonNegativeInteger record.envelopeVersion
      ∨ !isNonNegativeInteger record.cryptoVersion
      ∨ !isNonNegativeInteger record.keyVersion
      ∨ !isNonNegativeInteger record.aadVersion
      ∨ !isNonNegativeInteger record.syncVersion
      ∨ !isNonNegativeInteger record.schemaVersion
      ∨ !isNonNegativeInteger record.resetEpoch
      ∨ !isNonNegativeInteger record.createdAt
      ∨ !isNonNegativeInteger record.updatedAt
      ∨ !isNonNegativeInteger record.deletedAt
      ∨ record.updatedAt < record.createdAt
      ∨ (record.deletedAt > 0 ∧ record.deletedAt < record.createdAt) then
    .invalidEnvelope
  else if record.schemaVersion > MOONLIGHT_SCHEMA_VERSION then .schemaTooNew
  else if record.ownerType ≠ moonlightExpectedOwnerType record.recordType then
    .ownerMismatch
  else if record.secretKind ≠ moonlightExpectedSecretKind record.recordType then
    .secretKindMismatch
  else if record.recordType ≠ .secret
      ∧ (record.envelopeVersion ≠ 0 ∨ record.cryptoVersion ≠ 0
        ∨ record.keyVersion ≠ 0 ∨ record.aadVersion ≠ 0) then
    .invalidEnvelope
  else if record.recordType = .secret ∧ record.deletedAt = 0
      ∧ (record.envelopeVersion < 1 ∨ record.cryptoVersion < 1
        ∨ record.keyVersion < 1 ∨ record.aadVersion < 1) then
    .invalidEnvelope
  else .none

/-- What is asked of a row that is deleted. -/
def validateTombstone (record : MoonlightRecord) :
    MoonlightQuarantineReason :=
  if record.payload ≠ MOONLIGHT_TOMBSTONE_PAYLOAD ∨ record.ciphertext ≠ []
      ∨ record.envelopeVersion ≠ 0 ∨ record.cryptoVersion ≠ 0
      ∨ record.keyVersion ≠ 0 ∨ record.aadVersion ≠ 0 then
    .invalidTombstone
  else .none

/-- What is asked of a live row. -/
def validateLive (record : MoonlightRecord) : MoonlightQuarantineReason :=
  match moonlightCanonicalizeJson P.normalizer D record.payload with
  | .error reason => reason
  | .ok canonical =>
    if canonical ≠ record.payload then .nonCanonicalPayload
    else match (payloadObject record.payload
        : Option (List (Text × Json D))) with
    | none => .invalidPayloadJson
    | some values =>
      if !(extractMeta values).any fun md =>
          moonlightRecordMetaIsValid md record.recordType then
        .invalidMeta
      else if !recordReferencesAreValid record values then
        .referenceMismatch
      else if record.recordType = .secret
          ∧ !secretMetadataIsSafe values then
        .secretPlaintextForbidden
      else if !recordPayloadSemanticsAreValid P record values then
        .invalidPayloadSemantics
      else if record.recordType = .secret then
        if record.ciphertext = []
            ∨ decodeCanonicalBase64Url P record.ciphertext = none then
          .secretPlaintextForbidden
        else .none
      else if record.ciphertext ≠ [] then .invalidEnvelope
      else .none

def moonlightValidateRecord (record : MoonlightRecord) :
    MoonlightQuarantineReason :=
  if !recordTypeKnown record.recordType then .unknownRecordType
  else if !ownerTypeKnown record.ownerType then .unknownOwnerType
  else if validateEnvelope record ≠ .none then validateEnvelope record
  else if (utf8Units record.payload).length > MOONLIGHT_PAYLOAD_MAX_BYTES then
    .payloadTooLarge
  else if record.ciphertext.length > MOONLIGHT_CIPHERTEXT_MAX_BYTES * 2 then
    .ciphertextTooLarge
  else
    let content := if record.deletedAt > 0 then validateTombstone record
      else validateLive P record
    if content ≠ .none then content
    else
      let expectedHash := moonlightRecordPayloadHashSha256 P record
      if !isSha256Hex record.payloadHashSha256 ∨ expectedHash = []
          ∨ expectedHash ≠ record.payloadHashSha256 then .hashMismatch
      else .none

/-- `moonlightValidateRecord(record).valid`. -/
def Valid (record : MoonlightRecord) : Prop :=
  moonlightValidateRecord P record = .none

instance (record : MoonlightRecord) : Decidable (Valid P record) :=
  inferInstanceAs (Decidable (_ = _))

end Policy

end RemoteDesk.Moonlight
