/-
What the Moonlight models accept (model/MoonlightModels.ets).

The checks take what `JSON.parse` returned: a typed field is a member that
is looked up, and one that is missing is undefined. An array is an object
without members of these names. A number is compared as an integer, but
for the volume (`inUnit`: a number from 0 to 1).
-/
import RemoteDesk.Endpoint.ArkPolicy
import RemoteDesk.Lib.Json
import RemoteDesk.Sftp.BatchPolicy

namespace RemoteDesk.Moonlight

open Lib

def MAX_SAFE_INTEGER : Int := 2 ^ 53 - 1

-- ================================== values

section Values

variable {D : Type}

/-- The members of a value of type object that is not null. -/
def membersOf : Json D → Option (List (Text × Json D))
  | .obj members => some members
  | .arr _ => some []
  | _ => none

def isPlainObject : Option (Json D) → Bool
  | some (.obj _) => true
  | _ => false

def isBoolean : Option (Json D) → Bool
  | some (.bool _) => true
  | _ => false

def isSafeInteger (value : Int) : Bool :=
  -MAX_SAFE_INTEGER ≤ value && value ≤ MAX_SAFE_INTEGER

/-- A text within bounds, without control characters. -/
def isBoundedText (value : Text) (minimum maximum : Nat) : Bool :=
  minimum ≤ value.length && value.length ≤ maximum
    && value.all fun code => !(code < 0x20 || code = 0x7f)

def isBoundedTextValue (value : Option (Json D)) (minimum maximum : Nat) :
    Bool :=
  match value with
  | some (.str text) => isBoundedText text minimum maximum
  | _ => false

/-- `/^[0-9a-f]{64}$/`. -/
def isSha256Hex (value : Text) : Bool :=
  value.length = 64
    && value.all fun c => isDigitCode c || (97 ≤ c && c ≤ 102)

def isSha256Text : Option (Json D) → Bool
  | some (.str text) => isSha256Hex text
  | _ => false

def isOneOf (value : Option (Json D)) (allowed : List String) : Bool :=
  match value with
  | some (.str text) => (allowed.map codes).contains text
  | _ => false

variable [JsNumber D]

/-- The integer a value is, if it is a safe one. -/
def safeInteger : Option (Json D) → Option Int
  | some (.num d) => (JsNumber.toInt d).filter isSafeInteger
  | _ => none

def isIntegerInRange (value : Option (Json D)) (minimum maximum : Int) :
    Bool :=
  (safeInteger value).any fun n => minimum ≤ n && n ≤ maximum

def isNumber (n : Int) : Option (Json D) → Bool
  | some (.num d) => JsNumber.toInt d = some n
  | _ => false

/-- What a condition takes for true. -/
def isTruthy : Option (Json D) → Bool
  | none | some .null => false
  | some (.bool b) => b
  | some (.num d) => JsNumber.toInt d ≠ some 0
  | some (.str text) => text ≠ []
  | some (.arr _) | some (.obj _) => true

end Values

-- =============================== constants

def MOONLIGHT_DEFAULT_HTTPS_PORT : Int := 47984
def ID_MAX_LENGTH : Nat := 128
def NAME_MAX_LENGTH : Nat := 128
def ADDRESS_MAX_LENGTH : Nat := 255
def TITLE_MAX_LENGTH : Nat := 256
def MAX_ADDRESSES : Nat := 16

-- =============================== addresses

section Addresses

open Endpoint

def parseEndpointFields (hostInput : Text) (port : Nat) : ParseResult :=
  if !validPort port then failed .invalidPort
  else (Ark.parseEndpointHost hostInput .persisted).withPort port

def familyName : AddressFamily → Text
  | .hostname => codes "hostname"
  | .ipv4 => codes "ipv4"
  | .ipv6 => codes "ipv6"

structure MoonlightAddress where
  host : Text
  family : Text
  port : Nat
  scope : Text
deriving DecidableEq, Repr

/-- The host with its scope behind it. -/
def transportHost (host scope : Text) : Text :=
  host ++ if scope = [] then [] else 37 :: scope

/-- A missing scope is an empty one here. -/
def canonicalMoonlightAddress (address : MoonlightAddress) :
    MoonlightAddress :=
  let scope := Sftp.trim address.scope
  let parsed := parseEndpointFields (transportHost address.host scope)
    address.port
  if !parsed.ok ∨ familyName parsed.endpoint.family ≠ address.family
      ∨ parsed.endpoint.scopeKind = .numeric then
    { address with host := Sftp.trim address.host, scope }
  else
    { host := parsed.endpoint.canonicalHost, family := address.family,
      port := parsed.endpoint.port, scope := parsed.endpoint.scope }

/-- `toLowerCase` is only called on hosts that are ASCII. -/
def moonlightAddressKey (address : MoonlightAddress) : Text :=
  let normalized := canonicalMoonlightAddress address
  let host := transportHost (normalized.host.map asciiLower) normalized.scope
  address.family ++ 124 :: host ++ 124 :: numeral 10 address.port

/-- The key an address had before keys were canonical. -/
def compatiblePreferredKey (address : MoonlightAddress) : Text :=
  address.family ++ 124 :: (Sftp.trim address.host).map asciiLower
    ++ 124 :: numeral 10 address.port

variable {D : Type} [JsNumber D]

/-- `moonlightAddressIsValid`, with the address it is about. -/
def moonlightAddressIsValid (address : Json D) : Option MoonlightAddress := do
  let fields ← membersOf address
  let .str host ← Members.lookup (codes "host") fields | none
  let .str family ← Members.lookup (codes "family") fields | none
  let port ← safeInteger (Members.lookup (codes "port") fields)
  let scope ← match Members.lookup (codes "scope") fields with
    | none => some []
    | some (.str scope) => some scope
    | some _ => none
  if !isBoundedText host 1 ADDRESS_MAX_LENGTH
      ∨ !isOneOf (some (.str family : Json D)) ["ipv4", "ipv6", "hostname"]
      ∨ !(1 ≤ port ∧ port ≤ 65535) ∨ 37 ∈ host then none
  else
    let parsed := parseEndpointFields (transportHost host scope) port.toNat
    if parsed.ok ∧ familyName parsed.endpoint.family = family
        ∧ parsed.endpoint.scopeKind ≠ .numeric
        ∧ (parsed.endpoint.scope = [] ∨ family = codes "ipv6")
        ∧ parsed.endpoint.canonicalHost = host
        ∧ parsed.endpoint.scope = scope then
      some { host, family, port := port.toNat, scope }
    else none

/-- The addresses of a list that is all valid, with keys of their own. -/
def validAddresses : List Text → List (Json D) →
    Option (List MoonlightAddress)
  | _, [] => some []
  | keys, value :: rest =>
    match moonlightAddressIsValid value with
    | none => none
    | some address =>
      let key := moonlightAddressKey address
      if key ∈ keys then none
      else (validAddresses (keys ++ [key]) rest).map (address :: ·)

-- =================================== hosts

def macText (value : Text) : Bool :=
  let groups := value.splitOn 58
  groups.length = 6
    && groups.all fun group => group.length = 2 && group.all isHexCode

def moonlightWakeOnLanIsValid (wakeOnLan : Json D) : Bool :=
  match membersOf wakeOnLan with
  | none => false
  | some fields =>
    match Members.lookup (codes "enabled") fields,
        Members.lookup (codes "mac") fields,
        Members.lookup (codes "broadcast") fields with
    | some (.bool enabled), some (.str mac), some (.str broadcast) =>
      if !enabled then
        (mac = [] || isBoundedText mac 1 32)
          && (broadcast = []
            || isBoundedText broadcast 1 ADDRESS_MAX_LENGTH)
      else macText mac && isBoundedText broadcast 1 ADDRESS_MAX_LENGTH
    | _, _, _ => false

/-- A host as `hostPayloadIsValid` puts it together. -/
structure MoonlightHost (D : Type) where
  id : Text
  serverUuid : Option (Json D)
  displayName : Option (Json D)
  addresses : List (Json D)
  preferredAddressKey : Option (Json D)
  httpsPort : Json D
  hostType : Option (Json D)
  wakeOnLan : Json D
  userOrder : Option (Json D)

def moonlightHostIsValid (host : MoonlightHost D) : Bool :=
  isBoundedText host.id 1 ID_MAX_LENGTH
    && isBoundedTextValue host.serverUuid 1 ID_MAX_LENGTH
    && isBoundedTextValue host.displayName 1 NAME_MAX_LENGTH
    && isIntegerInRange (some host.httpsPort) 1 65535
    && isOneOf host.hostType ["sunshine", "gamestream"]
    && isIntegerInRange host.userOrder 0 1000000
    && 1 ≤ host.addresses.length && host.addresses.length ≤ MAX_ADDRESSES
    && match validAddresses [] host.addresses with
      | none => false
      | some addresses =>
        (match host.preferredAddressKey with
          | some (.str key) => key = []
              || (addresses.map moonlightAddressKey).contains key
              || (addresses.map compatiblePreferredKey).contains key
          | _ => false)
        && moonlightWakeOnLanIsValid host.wakeOnLan

end Addresses

-- ================================ settings

section Settings

variable {D : Type} [JsNumber D]

/-- A check of a field that may be missing. -/
def optional (check : Option (Json D) → Bool) (value : Option (Json D)) :
    Bool :=
  value.isNone || check value

/-- The checks of one section of the settings, field by field. -/
def sectionIsValid (settings : List (Text × Json D)) (name : String)
    (checks : List (String × (Option (Json D) → Bool))) : Bool :=
  match (Members.lookup (codes name) settings).bind membersOf with
  | none => false
  | some fields =>
    checks.all fun (field, check) =>
      check (Members.lookup (codes field) fields)

def oneOf (allowed : List String) : Option (Json D) → Bool :=
  fun value => isOneOf value allowed

def inRange (minimum maximum : Int) : Option (Json D) → Bool :=
  fun value => isIntegerInRange value minimum maximum

/-- `moonlightSettingsAreValid`; the checks are grouped by section. -/
def moonlightSettingsAreValid (inUnit : D → Bool)
    (settings : List (Text × Json D)) : Bool :=
  isNumber 1 (Members.lookup (codes "schemaVersion") settings)
    && sectionIsValid settings "video" [
      ("codecPreference", oneOf ["auto", "h264", "hevc", "av1"]),
      ("resolutionMode",
        oneOf ["host", "720p", "1080p", "1440p", "2160p", "custom"]),
      ("adaptiveResolution", optional (oneOf ["host", "device", "off"])),
      ("customWidth", inRange 320 7680),
      ("customHeight", inRange 240 4320),
      ("fps", inRange 30 240),
      ("bitrateKbps", inRange 1000 200000),
      ("hdr", isBoolean),
      ("yuv444", isBoolean),
      ("latencyMode", oneOf ["lowLatency", "balanced", "smooth"]),
      ("scalingMode", optional (oneOf ["fit", "fill", "oneToOne"]))]
    && sectionIsValid settings "audio" [
      ("channels", oneOf ["stereo", "surround51", "surround71"]),
      ("enabled", isBoolean),
      ("playOnHost", isBoolean),
      ("volume", fun value => match value with
        | some (.num d) => inUnit d
        | _ => false)]
    && sectionIsValid settings "input" [
      ("touchMode", oneOf ["touch", "absoluteMouse", "relativeMouse"]),
      ("controlMode",
        optional (oneOf ["adaptive", "keyboardMouse", "trackpad"])),
      ("keyboardTarget", optional (oneOf ["ask", "windows", "macos"])),
      ("captureKeyboard", isBoolean),
      ("forwardSystemShortcuts", isBoolean),
      ("enableRumble", isBoolean),
      ("controllerSlot", inRange (-1) 3)]
    && sectionIsValid settings "network" [
      ("discovery", oneOf ["manualOrMdns", "manualOnly"]),
      ("preferredAddressFamily", oneOf ["auto", "ipv4", "ipv6"]),
      ("streamEncryption", oneOf ["auto", "required", "compatible"]),
      ("allowLegacySha1", isBoolean),
      ("autoReconnect", isBoolean),
      ("meteredNetwork", oneOf ["ask", "allow", "deny"]),
      ("reconnectBudgetMs", inRange 0 120000)]
    && sectionIsValid settings "background" [
      ("allowPip", optional isBoolean),
      ("allowAudioInBackground", isBoolean),
      ("noSurfaceVideo", oneOf ["drop", "pause"])]
    && sectionIsValid settings "security" [
      ("blockCertificateChanges", isTruthy),
      ("identityStorage", oneOf ["localSecure", "cloudEncryptedPending"])]
    && sectionIsValid settings "diagnostics" [
      ("showPerformanceHud", isBoolean),
      ("logLevel", oneOf ["error", "info", "debug"])]

-- ================================ profiles

def moonlightStreamOverridesAreValid (overrides : List (Text × Json D)) :
    Bool :=
  [("codecPreference", oneOf ["auto", "h264", "hevc", "av1"]),
    ("resolutionMode",
      oneOf ["host", "720p", "1080p", "1440p", "2160p", "custom"]),
    ("adaptiveResolution", oneOf ["host", "device", "off"]),
    ("customWidth", inRange 320 7680),
    ("customHeight", inRange 240 4320),
    ("fps", inRange 30 240),
    ("bitrateKbps", inRange 1000 200000),
    ("latencyMode", oneOf ["lowLatency", "balanced", "smooth"]),
    ("scalingMode", oneOf ["fit", "fill", "oneToOne"]),
    ("hdr", isBoolean)].all fun (field, check) =>
      optional check (Members.lookup (codes field) overrides)

def moonlightInputOverridesAreValid (overrides : List (Text × Json D)) :
    Bool :=
  [("touchMode", oneOf ["touch", "absoluteMouse", "relativeMouse"]),
    ("controllerSlot", inRange (-1) 3),
    ("captureKeyboard", isBoolean)].all fun (field, check) =>
      optional check (Members.lookup (codes field) overrides)

structure MoonlightProfile (D : Type) where
  id : Text
  hostId : Option (Json D)
  appId : Option (Json D)
  titleSnapshot : Option (Json D)
  streamOverrides : List (Text × Json D)
  inputOverrides : List (Text × Json D)
  favorite : Option (Json D)
  userOrder : Option (Json D)

def moonlightProfileIsValid (profile : MoonlightProfile D) : Bool :=
  isBoolean profile.favorite
    && isBoundedText profile.id 1 ID_MAX_LENGTH
    && isBoundedTextValue profile.hostId 1 ID_MAX_LENGTH
    && isBoundedTextValue profile.appId 1 ID_MAX_LENGTH
    && isBoundedTextValue profile.titleSnapshot 1 TITLE_MAX_LENGTH
    && moonlightStreamOverridesAreValid profile.streamOverrides
    && moonlightInputOverridesAreValid profile.inputOverrides
    && isIntegerInRange profile.userOrder 0 1000000

-- =================================== trust

structure MoonlightTrustCandidate (D : Type) where
  hostId : Option (Json D)
  serverUuid : Option (Json D)
  serverCertificateSha256 : Option (Json D)
  pairingGeneration : Option (Json D)
  candidateObservedAt : Option (Json D)

def moonlightTrustCandidateIsValid (candidate : MoonlightTrustCandidate D) :
    Bool :=
  isBoundedTextValue candidate.hostId 1 ID_MAX_LENGTH
    && isBoundedTextValue candidate.serverUuid 1 ID_MAX_LENGTH
    && isSha256Text candidate.serverCertificateSha256
    && (safeInteger candidate.pairingGeneration).any (0 ≤ ·)
    && (safeInteger candidate.candidateObservedAt).any (0 ≤ ·)

end Settings

end RemoteDesk.Moonlight
