/-
What a Moonlight host answers (moonlight/core/MoonlightHostApi.cpp).

An answer is XML under a `root` with a status. What an operation makes of it
is read field by field, or refused with an error of the API.
-/
import RemoteDesk.Moonlight.Core.HostXml

namespace RemoteDesk.Moonlight.Core

open Lib

inductive MoonlightHostOperation where
  | ServerInfo
  | AppList
  | AppAsset
  | Pair
  | PairChallenge
  | Unpair
  | Launch
  | Resume
  | Cancel
deriving DecidableEq, Repr

inductive MoonlightHostError where
  | None
  | InvalidRequest
  | InvalidEndpoint
  | InvalidPort
  | InvalidQuery
  | UrlTooLong
  | RequestBusy
  | ShuttingDown
  | Cancelled
  | StaleRequest
  | DeadlineExceeded
  | DnsFailure
  | ConnectFailure
  | TlsVersionFailure
  | TlsChainFailure
  | TrustConflict
  | HttpUnauthorized
  | HttpNotFound
  | HttpFailure
  | BodyTooLarge
  | MalformedXml
  | XmlBudgetExceeded
  | XmlStatusRejected
  | MissingRequiredField
  | InvalidField
  | DuplicateApp
  | HostBusy
  | ActionUnknown
  | TransportFailure
  | InternalFailure
deriving DecidableEq, Repr

structure MoonlightServerInfo where
  uniqueId : HostText
  appVersion : HostText
  appVersionParts : List Int
  state : HostText
  paired : Bool
  currentGame : Nat
  hostName : Option HostText
  gfeVersion : Option HostText
  gpuType : Option HostText
  localAddress : Option HostText
  externalAddress : Option HostText
  httpsPort : Option Nat
  externalPort : Option Nat
  maxLumaPixelsH264 : Option Nat
  maxLumaPixelsHevc : Option Nat
  codecModeSupport : Option Nat
deriving DecidableEq, Repr

structure MoonlightAppEntry where
  id : Nat
  title : HostText
  hdrSupported : Option Bool
deriving DecidableEq, Repr

structure MoonlightPairingPayload where
  paired : Option Bool
  plainCertificateHex : Option HostText
  challengeResponseHex : Option HostText
  pairingSecretHex : Option HostText
deriving DecidableEq, Repr

structure MoonlightActionResult where
  accepted : Bool := false
  outcomeUnknown : Bool := false
  rtspSessionUrl : Option HostText := none
deriving DecidableEq, Repr

def kMaxServerFieldBytes : Nat := 1024
def kMaxPairingFieldBytes : Nat := 256 * 1024
def kMaxApps : Nat := 2048
def kMaxAppTitleBytes : Nat := 1024

def maxUint16 : Nat := 2 ^ 16 - 1
def maxUint32 : Nat := 2 ^ 32 - 1
def maxUint64 : Nat := 2 ^ 64 - 1

def isHex (value : HostText) (allowEmpty : Bool) : Bool :=
  if value = [] then allowEmpty
  else value.length % 2 = 0 && value.all isHexCode

-- ================================== fields

abbrev Answer (α : Type) : Type := Except MoonlightHostError α

def namedChildren (root : XmlNode) (name : HostText) : List XmlNode :=
  root.children.filter fun child => child.name = name

/-- `findUniqueChild`: the child of a name, or an error where there are
two. -/
def findUniqueChild (root : XmlNode) (name : HostText) :
    Answer (Option XmlNode) :=
  match namedChildren root name with
  | [] => .ok none
  | [child] => .ok (some child)
  | _ => .error .InvalidField

/-- The text of a node without children, within the budget. -/
def scalarText (node : XmlNode) (budget : Nat) : Option HostText :=
  if !node.children.isEmpty then none
  else
    let output := trimAscii node.text
    if output.length ≤ budget then some output else none

def requiredText (root : XmlNode) (name : HostText) (budget : Nat) :
    Answer HostText := do
  match ← findUniqueChild root name with
  | none => .error .MissingRequiredField
  | some node =>
    match scalarText node budget with
    | none => .error .InvalidField
    | some output => if output = [] then .error .InvalidField else .ok output

def optionalText (root : XmlNode) (name : HostText) (budget : Nat) :
    Answer (Option HostText) := do
  match ← findUniqueChild root name with
  | none => .ok none
  | some node =>
    match scalarText node budget with
    | none => .error .InvalidField
    | some value =>
      if value = [] then .error .InvalidField else .ok (some value)

def optionalUnsigned (maximum : Nat) (root : XmlNode) (name : HostText) :
    Answer (Option Nat) := do
  match ← optionalText root name kMaxServerFieldBytes with
  | none => .ok none
  | some text =>
    match parseUnsigned maximum text with
    | none => .error .InvalidField
    | some parsed => .ok (some parsed)

-- ==================================== root

def findAttribute (node : XmlNode) (name : HostText) : Option XmlAttribute :=
  node.attributes.find? fun candidate => candidate.name = name

/-- `parseRoot`: the status, as soon as there is one, and the root. -/
def parseRoot (body : HostText) : Option Int × Answer XmlNode :=
  match parseXml body with
  | .error .Budget => (none, .error .XmlBudgetExceeded)
  | .error _ => (none, .error .MalformedXml)
  | .ok root =>
    if root.name ≠ codes "root" then (none, .error .MalformedXml)
    else
      match findAttribute root (codes "status_code") with
      | none => (none, .error .MissingRequiredField)
      | some found =>
        match parseUnsigned maxUint32 found.value with
        | none => (none, .error .InvalidField)
        | some unsigned =>
          let status : Int :=
            if unsigned ≤ 2 ^ 31 - 1 then unsigned
            else (unsigned : Int) - 2 ^ 32
          (some status,
            if status = 503 ∨ status = 599 then .error .HostBusy
            else if status = 200 then .ok root
            else .error .XmlStatusRejected)

-- ============================= server info

def versionPart (isLast : Bool) (part : HostText) : Option Int :=
  let negative := part.head? = some 45
  let digits := if negative then part.drop 1 else part
  if part = [] || (negative && !isLast) then none
  else if digits = [] || digits.length > 6 || !digits.all isDigitCode then none
  else some (if negative then -(spelled 10 digits : Int) else spelled 10 digits)

/-- The loop of `parseVersion`, for so many parts in front of the last. -/
def parseVersionFrom : Nat → HostText → Option (List Int)
  | 0, value => (versionPart true value).map fun part => [part]
  | parts + 1, value =>
    match value.findIdx? (· = 46) with
    | none => none
    | some place =>
      match versionPart false (value.take place),
          parseVersionFrom parts (value.drop (place + 1)) with
      | some part, some rest => some (part :: rest)
      | _, _ => none

def parseVersion (value : HostText) : Answer (List Int) :=
  match parseVersionFrom 3 value with
  | none => .error .InvalidField
  | some parts => .ok parts

def kBusySuffix : HostText := codes "_SERVER_BUSY"

def reportsBusy (state : HostText) : Bool := kBusySuffix.isSuffixOf state

def parseServerInfo (root : XmlNode) : Answer MoonlightServerInfo := do
  let uniqueId ← requiredText root (codes "uniqueid") 256
  let appVersion ← requiredText root (codes "appversion") 64
  let appVersionParts ← parseVersion appVersion
  let state ← requiredText root (codes "state") 256
  let pairStatus ← requiredText root (codes "PairStatus") 8
  if pairStatus ≠ codes "0" ∧ pairStatus ≠ codes "1" then
    .error .InvalidField
  let currentGame ← requiredText root (codes "currentgame") 16
  let some currentGame := parseUnsigned maxUint32 currentGame
    | .error .InvalidField
  let hostName ← optionalText root (codes "hostname") kMaxServerFieldBytes
  let gfeVersion ← optionalText root (codes "GfeVersion") kMaxServerFieldBytes
  let gpuType ← optionalText root (codes "gputype") kMaxServerFieldBytes
  let localAddress ← optionalText root (codes "LocalIP") 255
  let externalAddress ← optionalText root (codes "ExternalIP") 255
  let httpsPort ← optionalUnsigned maxUint16 root (codes "HttpsPort")
  let externalPort ← optionalUnsigned maxUint16 root (codes "ExternalPort")
  let maxLumaPixelsH264 ←
    optionalUnsigned maxUint64 root (codes "MaxLumaPixelsH264")
  let maxLumaPixelsHevc ←
    optionalUnsigned maxUint64 root (codes "MaxLumaPixelsHEVC")
  let codecModeSupport ←
    optionalUnsigned maxUint64 root (codes "ServerCodecModeSupport")
  if httpsPort = some 0 ∨ externalPort = some 0 then .error .InvalidField
  .ok
    { uniqueId
      appVersion
      appVersionParts
      state
      paired := pairStatus = codes "1"
      -- while the server is idle, the game may be the last one
      currentGame := if reportsBusy state then currentGame else 0
      hostName
      gfeVersion
      gpuType
      localAddress
      externalAddress
      httpsPort
      externalPort
      maxLumaPixelsH264
      maxLumaPixelsHevc
      codecModeSupport }

-- ==================================== apps

def parseHdr (app : XmlNode) : Answer (Option Bool) := do
  match ← findUniqueChild app (codes "IsHdrSupported") with
  | none => .ok none
  | some node =>
    match scalarText node 8 with
    | none => .error .InvalidField
    | some hdr =>
      if hdr ≠ codes "0" ∧ hdr ≠ codes "1" then .error .InvalidField
      else .ok (some (hdr = codes "1"))

/-- The loop of `parseApps`, with the identifiers that were seen. -/
def parseAppsFrom : List XmlNode → List Nat → List MoonlightAppEntry → Nat →
    Answer (List MoonlightAppEntry × Nat)
  | [], _, apps, partialCount => .ok (apps, partialCount)
  | child :: children, ids, apps, partialCount => do
      if apps.length + partialCount ≥ kMaxApps then .error .XmlBudgetExceeded
      let idNode ← findUniqueChild child (codes "ID")
      let titleNode ← findUniqueChild child (codes "AppTitle")
      let id := ((idNode.bind fun node => scalarText node 16).bind
        (parseUnsigned maxUint32)).filter (· ≠ 0)
      if id.any (ids.contains ·) then .error .DuplicateApp
      let ids := ids ++ id.toList
      if titleNode.any fun node =>
          (trimAscii node.text).length > kMaxAppTitleBytes then
        .error .XmlBudgetExceeded
      match id, titleNode.bind fun node =>
          scalarText node kMaxAppTitleBytes with
      | some id, some title =>
        let hdrSupported ← parseHdr child
        let title :=
          if title = [] then codes "Application " ++ numeral 10 id else title
        parseAppsFrom children ids (apps ++ [{ id, title, hdrSupported }])
          partialCount
      | _, _ => parseAppsFrom children ids apps (partialCount + 1)

def parseApps (root : XmlNode) : Answer (List MoonlightAppEntry × Nat) :=
  parseAppsFrom (namedChildren root (codes "App")) [] [] 0

-- ===================== pairing and actions

def parsePairing (root : XmlNode) : Answer MoonlightPairingPayload := do
  let some paired ← optionalText root (codes "paired") 8
    | .error .MissingRequiredField
  if paired ≠ codes "0" ∧ paired ≠ codes "1" then .error .InvalidField
  let plainCertificateHex ←
    optionalText root (codes "plaincert") kMaxPairingFieldBytes
  let challengeResponseHex ←
    optionalText root (codes "challengeresponse") kMaxPairingFieldBytes
  let pairingSecretHex ←
    optionalText root (codes "pairingsecret") kMaxPairingFieldBytes
  if [plainCertificateHex, challengeResponseHex, pairingSecretHex].any
      (·.any fun value => !isHex value true) then
    .error .InvalidField
  .ok
    { paired := some (paired = codes "1")
      plainCertificateHex
      challengeResponseHex
      pairingSecretHex }

def actionField : MoonlightHostOperation → HostText
  | .Launch => codes "gamesession"
  | .Resume => codes "resume"
  | _ => codes "cancel"

def parseAction (root : XmlNode) (operation : MoonlightHostOperation) :
    Answer MoonlightActionResult := do
  if operation = .Unpair then return { accepted := true }
  let value ← requiredText root (actionField operation) 16
  let some parsed := parseUnsigned maxUint32 value | .error .InvalidField
  if operation = .Launch ∨ operation = .Resume then
    let rtspSessionUrl ← optionalText root (codes "sessionUrl0") 4096
    if rtspSessionUrl.any fun url => !(codes "rtsp://").isPrefixOf url
        && !(codes "rtspenc://").isPrefixOf url then
      .error .InvalidField
    return { accepted := parsed ≠ 0, rtspSessionUrl }
  return { accepted := parsed ≠ 0 }

end RemoteDesk.Moonlight.Core
