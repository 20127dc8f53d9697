/-
The native endpoint policy (`common/endpoint_address_policy.cpp`).

Strings are their bytes. `inet_pton(AF_INET6, …)` is a parameter: the
sixteen bytes it writes, or `none` where it does not return 1.

`parseHost` is cut in three: the brackets (`parseHost`), the scope behind
a percent sign (`parseScoped`), and what is left (`parseBare`).
-/
import RemoteDesk.Endpoint.Address

namespace RemoteDesk.Endpoint.Native

open Lib

-- ================================== pieces

/-- `std::string::npos`. -/
def npos : Nat := 2 ^ 64 - 1

def find (value : List Nat) (ch : Nat) : Nat :=
  if ch ∈ value then value.idxOf ch else npos

def parsePort (value : List Nat) : Nat :=
  if value = [] ∨ value.length > 5 then 0
  else if !value.all isDigitCode then 0
  else
    let parsed := spelled 10 value
    if validPort parsed then parsed else 0

def parseOctet (part : List Nat) : Option Nat :=
  if part = [] ∨ part.length > 3
      ∨ part.length > 1 ∧ part.head? = some 48 then none
  else if !part.all isDigitCode then none
  else
    let parsed := spelled 10 part
    if parsed > 255 then none else some parsed

/-- The rounds of `ParseIpv4`; the number is how many parts come behind
this one. -/
def parseIpv4From : Nat → List Nat → Option (List Nat)
  | 0, value =>
    match cut 46 value with
    | (part, none) => (parseOctet part).map fun octet => [octet]
    | (_, some _) => none
  | behind + 1, value =>
    match cut 46 value with
    | (_, none) => none
    | (part, some value) =>
      match parseOctet part with
      | none => none
      | some octet => (parseIpv4From behind value).map (octet :: ·)

def parseIpv4 (value : List Nat) : Option (List Nat) := parseIpv4From 3 value

def ipv6Words (address : List Nat) : List Nat :=
  (List.range 8).map fun index =>
    address.getD (index * 2) 0 <<< 8 ||| address.getD (index * 2 + 1) 0

def canonicalIpv6 (address : List Nat) : List Nat :=
  let words := ipv6Words address
  writeWordsFrom (bestRun words) words.length words 0 []

def parseScope (value : List Nat) (mode : ParseMode) :
    ScopeKind × List Nat :=
  if value ≠ [] ∧ value.all isDigitCode then
    if mode ≠ .runtime ∨ value.length > 10 then (.none, [])
    else
      let numeric := spelled 10 value
      if numeric < 1 ∨ numeric > 0xffffffff then (.none, [])
      else (.numeric, numeral 10 numeric)
  else if value = [] ∨ value.length > 32
      ∨ !(value.head?.any isAsciiAlpha) then
    (.none, [])
  else if !value.all fun ch =>
      isAsciiAlnum ch || ch = 95 || ch = 46 || ch = 45 then
    (.none, [])
  else (.interface, value)

def validLabel (label : List Nat) : Bool :=
  !(label = [] || label.length > 63 || label.head? = some 45
      || label.getLast? = some 45)
    && label.all fun ch => isAsciiAlnum ch || ch = 45

/-- The loop over the labels: it ends where the text does. The number is
fuel, a label takes one code unit at least. -/
def validLabels : Nat → List Nat → Bool
  | 0, _ => true
  | fuel + 1, value =>
    if value = [] then true
    else validLabel (cut 46 value).1
      && ((cut 46 value).2.elim true fun rest => validLabels fuel rest)

def canonicalHostname (value : List Nat) : List Nat :=
  let value := if value.getLast? = some 46 then value.dropLast else value
  if value = [] ∨ value.length > 253 ∨ value.head? = some 46
      ∨ value.getLast? = some 46 ∨ codes ".." <:+: value then []
  else if validLabels value.length value then value.map asciiLower
  else []

def numericLabel (label : List Nat) : Bool :=
  label ≠ [] && label.all isDigitCode
    || (label.length > 2 && label.head? = some 48
      && (label.getD 1 0 = 120 || label.getD 1 0 = 88)
      && (label.drop 2).all isHexCode)

def numericLabels : Nat → List Nat → Bool
  | 0, _ => false
  | fuel + 1, value =>
    if value = [] then false
    else numericLabel (cut 46 value).1
      && ((cut 46 value).2.elim true fun rest => numericLabels fuel rest)

def legacyNumericHost (value : List Nat) : Bool :=
  let value := if value.getLast? = some 46 then value.dropLast else value
  numericLabels value.length value

/-- `IN6_IS_ADDR_UNSPECIFIED`, `IN6_IS_ADDR_V4MAPPED` and
`IN6_IS_ADDR_MULTICAST`. -/
def ipv6NotConnectable (address : List Nat) : Bool :=
  address.all (· = 0)
    || ((address.take 10).all (· = 0) && address.getD 10 0 = 0xff
      && address.getD 11 0 = 0xff)
    || address.getD 0 0 = 0xff

/-- `IN6_IS_ADDR_LINKLOCAL`. -/
def ipv6LinkLocal (address : List Nat) : Bool :=
  address.getD 0 0 = 0xfe && address.getD 1 0 &&& 0xc0 = 0x80

-- ================================= parsing

section Parsing

variable (inetPton : List Nat → Option (List Nat))

def parseBare (host : List Nat) (bracketed : Bool) (scope : List Nat)
    (scopeKind : ScopeKind) : ParseResult :=
  match parseIpv4 host with
  | some octets =>
    if bracketed then failed .invalidSyntax
    else if scope ≠ [] then failed .scopeNotAllowed
    else if ipv4NotConnectable octets then failed .addressNotConnectable
    else succeeded (canonicalIpv4 octets) .ipv4 [] .none
  | none =>
  match inetPton host with
  | some ipv6 =>
    if ipv6NotConnectable ipv6 then failed .addressNotConnectable
    else if ipv6LinkLocal ipv6 ∧ scope = [] then failed .scopeRequired
    else if !ipv6LinkLocal ipv6 ∧ scope ≠ [] then
      failed .scopeNotAllowed
    else succeeded (canonicalIpv6 ipv6) .ipv6 scope scopeKind
  | none =>
    if 58 ∈ host then failed .invalidIpv6
    else if 46 ∈ host ∧ (host.all fun ch => ch = 46 || isDigitCode ch)
        ∨ legacyNumericHost host then
      failed .invalidIpv4
    else if bracketed then failed .invalidSyntax
    else if scope ≠ [] then failed .scopeNotAllowed
    else
      let hostname := canonicalHostname host
      if hostname = [] then failed .invalidHostname
      else succeeded hostname .hostname [] .none

def parseScoped (host : List Nat) (bracketed : Bool) (mode : ParseMode) :
    ParseResult :=
  match cut 37 host with
  | (_, none) => parseBare inetPton host bracketed [] .none
  | (host, some rawScope) =>
    if 37 ∈ rawScope then failed .invalidSyntax
    else
      let (scopeKind, scope) := parseScope rawScope mode
      if scopeKind = .none then failed .scopeNotPortable
      else parseBare inetPton host bracketed scope scopeKind

def parseHost (input : List Nat) (mode : ParseMode) : ParseResult :=
  if input = [] then failed .empty
  else if invalidEndpointCharacters input then failed .invalidSyntax
  else if input.length > kMaxInputLength then failed .inputTooLong
  else if input.head? = some 91 then
    if input.length < 3 ∨ input.getLast? ≠ some 93
        ∨ find input 93 ≠ input.length - 1 then
      failed .invalidSyntax
    else
      parseScoped inetPton ((input.drop 1).take (input.length - 2)) true mode
  else if 91 ∈ input ∨ 93 ∈ input then failed .invalidSyntax
  else parseScoped inetPton input false mode

def parseAuthority (input : List Nat) (defaultPort : UInt16)
    (mode : ParseMode) : ParseResult :=
  if !validPort defaultPort.toNat then failed .invalidPort
  else if input = [] then failed .empty
  else if invalidEndpointCharacters input then failed .invalidSyntax
  else if input.length > kMaxInputLength then failed .inputTooLong
  else if input.head? = some 91 then
    let close := find input 93
    if close ≤ 1 then failed .invalidSyntax
    else
      -- `close + 1U` wraps when there is no bracket.
      let behind := (close + 1) % 2 ^ 64
      let hostText := input.take behind
      let suffix := input.drop behind
      if suffix = [] then
        (parseHost inetPton hostText mode).withPort defaultPort.toNat
      else if suffix.head? ≠ some 58 then failed .invalidSyntax
      else
        let port := parsePort (suffix.drop 1)
        if port = 0 then failed .invalidPort
        else (parseHost inetPton hostText mode).withPort port
  else
    let firstColon := find input 58
    let lastColon := (lastIndexOf input 58).getD npos
    if firstColon ≠ npos ∧ firstColon > 0 ∧ firstColon = lastColon then
      let port := parsePort (input.drop (firstColon + 1))
      if port = 0 then failed .invalidPort
      else (parseHost inetPton (input.take firstColon) mode).withPort port
    else (parseHost inetPton input mode).withPort defaultPort.toNat

def parseFields (hostInput : List Nat) (port : UInt16) (mode : ParseMode) :
    ParseResult :=
  if !validPort port.toNat then failed .invalidPort
  else (parseHost inetPton hostInput mode).withPort port.toNat

end Parsing

-- ============================== formatting

def transportHost (endpoint : Address) : List Nat :=
  if endpoint.family ≠ .ipv6 ∨ endpoint.scope = [] then
    endpoint.canonicalHost
  else endpoint.canonicalHost ++ codes "%" ++ endpoint.scope

def formatHostPort (endpoint : Address) : List Nat :=
  let host := transportHost endpoint
  if endpoint.port = 0 then host
  else if endpoint.family = .ipv6 then
    codes "[" ++ host ++ codes "]:" ++ numeral 10 endpoint.port
  else host ++ codes ":" ++ numeral 10 endpoint.port

-- ================================ identity

def familyText : AddressFamily → List Nat
  | .hostname => codes "hostname"
  | .ipv4 => codes "ipv4"
  | .ipv6 => codes "ipv6"

def serverIdentityKindText : ServerIdentityKind → List Nat
  | .none => codes "none"
  | .dns => codes "dns"
  | .ip => codes "ip"

section Identity

variable (inetPton : List Nat → Option (List Nat))

def parseServerIdentity (input : List Nat) : ServerIdentityResult :=
  if input = [] then { ok := true, error := .none }
  else if input.length > 253 ∨ invalidEndpointCharacters input
      ∨ 37 ∈ input ∨ 91 ∈ input ∨ 93 ∈ input then
    {}
  else match parseIpv4 input with
  | some octets =>
    if ipv4NotConnectable octets then {}
    else
      { ok := true, error := .none, identity := ⟨.ip, canonicalIpv4 octets⟩ }
  | none =>
  match inetPton input with
  | some ipv6 =>
    if ipv6NotConnectable ipv6 then {}
    else
      { ok := true, error := .none, identity := ⟨.ip, canonicalIpv6 ipv6⟩ }
  | none =>
    if 58 ∈ input ∨ legacyNumericHost input then {}
    else
      let hostname := canonicalHostname input
      if hostname = [] then {}
      else { ok := true, error := .none, identity := ⟨.dns, hostname⟩ }

def endpointMatchesCanonicalPolicy (endpoint : Address) : Bool :=
  if endpoint.version ≠ kAddressVersion ∨ !validPort endpoint.port
      ∨ endpoint.scopeKind = .numeric then false
  else
    let input :=
      if endpoint.family = .ipv6 ∧ endpoint.scope ≠ [] then
        endpoint.canonicalHost ++ (codes "%" ++ endpoint.scope)
      else endpoint.canonicalHost
    let parsed := parseHost inetPton input .persisted
    parsed.ok && parsed.endpoint.canonicalHost = endpoint.canonicalHost
      && parsed.endpoint.family = endpoint.family
      && parsed.endpoint.scope = endpoint.scope
      && parsed.endpoint.scopeKind = endpoint.scopeKind

/-- The server identity that counts. -/
def effectiveIdentity (endpoint : Address) (serverIdentity : ServerIdentity) :
    ServerIdentity :=
  if serverIdentity.kind = .none ∧ serverIdentity.canonicalName = [] then
    ⟨if endpoint.family = .hostname then .dns else .ip,
      endpoint.canonicalHost⟩
  else serverIdentity

def identityText (endpoint : Address) (effective : ServerIdentity) :
    List Nat :=
  codes "endpoint-v2|family=" ++ lengthPrefixed (familyText endpoint.family)
    ++ codes "|host=" ++ lengthPrefixed endpoint.canonicalHost
    ++ codes "|scope=" ++ lengthPrefixed endpoint.scope
    ++ codes "|port=" ++ numeral 10 endpoint.port
    ++ codes "|server-kind="
    ++ lengthPrefixed (serverIdentityKindText effective.kind)
    ++ codes "|server=" ++ lengthPrefixed effective.canonicalName

def identityV2 (endpoint : Address) (serverIdentity : ServerIdentity) :
    IdentityResult :=
  if !endpointMatchesCanonicalPolicy inetPton endpoint then {}
  else
    let validated := parseServerIdentity inetPton serverIdentity.canonicalName
    if ¬(serverIdentity.kind = .none ∧ serverIdentity.canonicalName = [])
        ∧ (!validated.ok || validated.identity ≠ serverIdentity) then
      { error := .invalidServerIdentity }
    else
      { ok := true, error := .none, identity :=
          identityText endpoint (effectiveIdentity endpoint serverIdentity) }

end Identity

end RemoteDesk.Endpoint.Native
