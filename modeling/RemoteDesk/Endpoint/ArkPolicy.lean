/-
The ArkTS endpoint policy (`services/EndpointAddressPolicy.ets`).

Strings are their UTF-16 units; `split` is `List.splitOn`, and a `number`
that stands for an integer is a natural number. A regular expression
becomes the test it spells.
-/
import RemoteDesk.Endpoint.Address

namespace RemoteDesk.Endpoint.Ark

open Lib

-- ================================== pieces

def parsePort (value : List Nat) : Nat :=
  if !(1 ≤ value.length && value.length ≤ 5 && value.all isDigitCode) then 0
  else
    let parsed := spelled 10 value
    if validPort parsed then parsed else 0

/-- `/^(0|[1-9][0-9]{0,2})$/`. -/
def octetText : List Nat → Bool
  | [] => false
  | ch :: rest =>
    (ch = 48 && rest = [])
      || (49 ≤ ch && ch ≤ 57 && rest.length ≤ 2 && rest.all isDigitCode)

def ipv4Octets (value : List Nat) : Option (List Nat) :=
  let parts := value.splitOn 46
  if parts.length ≠ 4 then none
  else if parts.all fun part =>
      octetText part && spelled 10 part ≤ 255 then
    some (parts.map (spelled 10))
  else none

/-- Empty when there is a full stop but no address. -/
def expandEmbeddedIpv4 (value : List Nat) : List Nat :=
  if 46 ∉ value then value
  else match cutLast 58 value with
  | none => []
  | some (before, after) =>
    match ipv4Octets after with
    | none => []
    | some octets =>
      let high := octets.getD 0 0 * 256 + octets.getD 1 0
      let low := octets.getD 2 0 * 256 + octets.getD 3 0
      before ++ codes ":" ++ numeral 16 high ++ codes ":"
        ++ numeral 16 low

/-- `/^[0-9a-fA-F]{1,4}$/`. -/
def groupText (part : List Nat) : Bool :=
  1 ≤ part.length && part.length ≤ 4 && part.all isHexCode

/-- The words of a text whose dotted quad is expanded. -/
def expandedWords (expandedV4 : List Nat) : Option (List Nat) :=
  let doubleColon := cutPair 58 expandedV4
  if doubleColon.any fun (_, rightText) => (cutPair 58 rightText).isSome then
    none
  else
    let leftText := doubleColon.elim expandedV4 Prod.fst
    let rightText := doubleColon.elim [] Prod.snd
    let left := if leftText = [] then [] else leftText.splitOn 58
    let right := if rightText = [] then [] else rightText.splitOn 58
    let omitted := 8 - left.length - right.length
    if !left.all groupText then none
    else if doubleColon.isSome ∧ omitted < 1 then none
    else if !right.all groupText then none
    else if doubleColon = none ∧ left.length ≠ 8 then none
    else
      let words := left.map (spelled 16)
        ++ (if doubleColon.isSome then List.replicate omitted 0 else [])
        ++ right.map (spelled 16)
      if words.length = 8 then some words else none

def parseIpv6Words (value : List Nat) : Option (List Nat) :=
  if value.length < 2 ∨ value.length > 45 ∨ 58 ∉ value
      ∨ codes ":::" <:+: value
      ∨ !(value.all fun ch => isHexCode ch || ch = 58 || ch = 46) then
    none
  else
    let expandedV4 := expandEmbeddedIpv4 value
    if expandedV4 = [] then none else expandedWords expandedV4

def ipv6IsUnspecified (words : List Nat) : Bool := words.all (· = 0)

def ipv6IsMappedIpv4 (words : List Nat) : Bool :=
  (words.take 5).all (· = 0) && words.getD 5 0 = 0xffff

def ipv6IsLinkLocal (words : List Nat) : Bool :=
  words.getD 0 0 &&& 0xffc0 = 0xfe80

def ipv6IsMulticast (words : List Nat) : Bool :=
  words.getD 0 0 &&& 0xff00 = 0xff00

def canonicalIpv6 (words : List Nat) : List Nat :=
  match bestRun words with
  | none => [58].intercalate (words.map (numeral 16))
  | some run => writeWordsFrom (some run) words.length words 0 []

def validLabel (label : List Nat) : Bool :=
  !(label.length < 1 || label.length > 63 || label.head? = some 45
      || label.getLast? = some 45)
    && label.all fun ch => isAsciiAlnum ch || ch = 45

/-- `toLowerCase` is only called on ASCII letters, digits, hyphens and full
stops. -/
def canonicalHostname (value : List Nat) : List Nat :=
  let hostname := if value.getLast? = some 46 then value.dropLast else value
  if hostname.length < 1 ∨ hostname.length > 253 ∨ hostname.head? = some 46
      ∨ hostname.getLast? = some 46 ∨ codes ".." <:+: hostname
      ∨ !(hostname.all fun ch => isAsciiAlnum ch || ch = 46 || ch = 45) then
    []
  else if (hostname.splitOn 46).all validLabel then hostname.map asciiLower
  else []

/-- `/^[0-9]+$/`, or `/^0[xX][0-9a-fA-F]+$/`. -/
def numericLabel (label : List Nat) : Bool :=
  (label ≠ [] && label.all isDigitCode)
    || match label with
      | ch :: x :: digits =>
        ch = 48 && (x = 120 || x = 88) && digits ≠ []
          && digits.all isHexCode
      | _ => false

def legacyNumericHost (value : List Nat) : Bool :=
  let candidate := if value.getLast? = some 46 then value.dropLast else value
  (candidate.splitOn 46).all numericLabel

/-- `/^[A-Za-z][A-Za-z0-9_.-]*$/`. -/
def interfaceText : List Nat → Bool
  | [] => false
  | ch :: rest => isAsciiAlpha ch
      && rest.all fun ch => isAsciiAlnum ch || ch = 95 || ch = 46 || ch = 45

def parseScope (value : List Nat) (mode : ParseMode) : ScopeKind :=
  if value ≠ [] ∧ value.all isDigitCode then
    if value.length > 10 then .none
    else
      let numeric := spelled 10 value
      if mode = .runtime ∧ numeric ≥ 1 ∧ numeric ≤ 0xffffffff then .numeric
      else .none
  else if 1 ≤ value.length ∧ value.length ≤ 32 ∧ interfaceText value then
    .interface
  else .none

-- ================================= parsing

def parseBare (host : List Nat) (bracketed : Bool) (scope : List Nat)
    (scopeKind : ScopeKind) : ParseResult :=
  match ipv4Octets host with
  | some octets =>
    if bracketed then failed .invalidSyntax
    else if scope ≠ [] then failed .scopeNotAllowed
    else if ipv4NotConnectable octets then failed .addressNotConnectable
    else succeeded (canonicalIpv4 octets) .ipv4 [] .none
  | none =>
  match parseIpv6Words host with
  | some words =>
    if ipv6IsUnspecified words || ipv6IsMappedIpv4 words
        || ipv6IsMulticast words then
      failed .addressNotConnectable
    else if ipv6IsLinkLocal words ∧ scope = [] then failed .scopeRequired
    else if !ipv6IsLinkLocal words ∧ scope ≠ [] then
      failed .scopeNotAllowed
    else succeeded (canonicalIpv6 words) .ipv6 scope scopeKind
  | none =>
    if 58 ∈ host then failed .invalidIpv6
    else if (host ≠ [] ∧ (host.all fun ch => isDigitCode ch || ch = 46)
        ∧ 46 ∈ host) ∨ legacyNumericHost host then
      failed .invalidIpv4
    else if bracketed then failed .invalidSyntax
    else if scope ≠ [] then failed .scopeNotAllowed
    else
      let hostname := canonicalHostname host
      if hostname = [] then failed .invalidHostname
      else succeeded hostname .hostname [] .none

def parseScoped (host : List Nat) (bracketed : Bool) (mode : ParseMode) :
    ParseResult :=
  match cut 37 host with
  | (_, none) => parseBare host bracketed [] .none
  | (host, some scope) =>
    if 37 ∈ scope then failed .invalidSyntax
    else
      let scopeKind := parseScope scope mode
      if scopeKind = .none then failed .scopeNotPortable
      else
        let scope :=
          if scopeKind = .numeric then numeral 10 (spelled 10 scope)
          else scope
        parseBare host bracketed scope scopeKind

def parseEndpointHost (input : List Nat) (mode : ParseMode) : ParseResult :=
  if input = [] then failed .empty
  else if invalidEndpointCharacters input then failed .invalidSyntax
  else if input.length > kMaxInputLength then failed .inputTooLong
  else if input.head? = some 91 then
    if input.length < 3 ∨ input.getLast? ≠ some 93
        ∨ input.findIdx? (· = 93) ≠ some (input.length - 1) then
      failed .invalidSyntax
    else
      parseScoped ((input.drop 1).take (input.length - 1 - 1)) true mode
  else if 91 ∈ input ∨ 93 ∈ input then failed .invalidSyntax
  else parseScoped input false mode

def parseEndpointAuthority (input : List Nat) (defaultPort : Nat)
    (mode : ParseMode) : ParseResult :=
  if !validPort defaultPort then failed .invalidPort
  else if input = [] then failed .empty
  else if invalidEndpointCharacters input then failed .invalidSyntax
  else if input.length > kMaxInputLength then failed .inputTooLong
  else if input.head? = some 91 then
    match input.findIdx? (· = 93) with
    | none => failed .invalidSyntax
    | some close =>
      if close ≤ 1 then failed .invalidSyntax
      else
        let hostText := input.take (close + 1)
        let suffix := input.drop (close + 1)
        if suffix = [] then
          (parseEndpointHost hostText mode).withPort defaultPort
        else if suffix.head? ≠ some 58 then failed .invalidSyntax
        else
          let port := parsePort (suffix.drop 1)
          if port = 0 then failed .invalidPort
          else (parseEndpointHost hostText mode).withPort port
  else
    match input.findIdx? (· = 58) with
    | none => (parseEndpointHost input mode).withPort defaultPort
    | some firstColon =>
      if firstColon > 0 ∧ lastIndexOf input 58 = some firstColon then
        let port := parsePort (input.drop (firstColon + 1))
        if port = 0 then failed .invalidPort
        else
          (parseEndpointHost (input.take firstColon) mode).withPort port
      else (parseEndpointHost input mode).withPort defaultPort

end RemoteDesk.Endpoint.Ark
