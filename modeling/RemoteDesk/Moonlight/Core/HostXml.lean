/-
The XML that a host answers with (the parser of
moonlight/core/MoonlightHostApi.cpp).

Texts are lists of byte codes. The parser's offset is the list behind it;
what reads one returns the list that it leaves, or the issue. Loops and the
recursion into children are given as many rounds as the bytes can take.
-/
import RemoteDesk.Lib.Numeral
import RemoteDesk.Lib.Search
import RemoteDesk.Lib.Trim

namespace RemoteDesk.Moonlight.Core

open Lib

abbrev HostText : Type := List Nat

def kMaxUrlBytes : Nat := 8 * 1024
def kMaxBodyBytes : Nat := 4 * 1024 * 1024
def kMaxXmlDepth : Nat := 32
def kMaxXmlElements : Nat := 16384
def kMaxAttributesPerElement : Nat := 16
def kMaxXmlNameBytes : Nat := 64
def kMaxAttributeBytes : Nat := 1024
def kMaxTextNodeBytes : Nat := 256 * 1024

def isAsciiWhitespace (value : Nat) : Bool :=
  value = 32 || value = 9 || value = 13 || value = 10

def trimAscii (value : HostText) : HostText := trimBy isAsciiWhitespace value

def skipWhitespace (rest : HostText) : HostText :=
  rest.dropWhile isAsciiWhitespace

/-- The loop of `parseUnsigned`, for a type with this maximum. -/
def parseUnsignedFrom (maximum : Nat) : HostText → Nat → Option Nat
  | [], result => some result
  | ch :: value, result =>
    if !isDigitCode ch then none
    else
      let digit := ch - 48
      if result > (maximum - digit) / 10 then none
      else parseUnsignedFrom maximum value (result * 10 + digit)

def parseUnsigned (maximum : Nat) (value : HostText) : Option Nat :=
  if value = [] then none else parseUnsignedFrom maximum value 0

-- =================================== utf-8

def isXmlCodePoint (codePoint : Nat) : Bool :=
  codePoint = 0x9 || codePoint = 0xA || codePoint = 0xD
    || (0x20 ≤ codePoint && codePoint ≤ 0xD7FF)
    || (0xE000 ≤ codePoint && codePoint ≤ 0xFFFD)
    || (0x10000 ≤ codePoint && codePoint ≤ 0x10FFFF)

def appendUtf8 (codePoint : Nat) : Option HostText :=
  if !isXmlCodePoint codePoint then none
  else if codePoint ≤ 0x7F then some [codePoint]
  else if codePoint ≤ 0x7FF then
    some [0xC0 ||| (codePoint >>> 6), 0x80 ||| (codePoint &&& 0x3F)]
  else if codePoint ≤ 0xFFFF then
    some [0xE0 ||| (codePoint >>> 12),
      0x80 ||| ((codePoint >>> 6) &&& 0x3F), 0x80 ||| (codePoint &&& 0x3F)]
  else
    some [0xF0 ||| (codePoint >>> 18),
      0x80 ||| ((codePoint >>> 12) &&& 0x3F),
      0x80 ||| ((codePoint >>> 6) &&& 0x3F), 0x80 ||| (codePoint &&& 0x3F)]

/-- The first byte of a code point: its bits, and how many bytes there are. -/
def utf8First (first : Nat) : Option (Nat × Nat) :=
  if first ≤ 0x7F then some (first, 1)
  else if first &&& 0xE0 = 0xC0 then
    if first &&& 0x1F = 0 then none else some (first &&& 0x1F, 2)
  else if first &&& 0xF0 = 0xE0 then some (first &&& 0x0F, 3)
  else if first &&& 0xF8 = 0xF0 then some (first &&& 0x07, 4)
  else none

def validateUtf8Xml : Nat → HostText → Bool
  | 0, value => value.isEmpty
  | _, [] => true
  | rounds + 1, first :: value =>
    match utf8First first with
    | none => false
    | some (bits, length) =>
      let following := value.take (length - 1)
      if following.length ≠ length - 1
          || following.any fun next => next &&& 0xC0 ≠ 0x80 then false
      else
        let codePoint := following.foldl
          (fun codePoint next => (codePoint <<< 6) ||| (next &&& 0x3F)) bits
        if (length = 2 && codePoint < 0x80)
            || (length = 3 && codePoint < 0x800)
            || (length = 4 && codePoint < 0x10000)
            || (0xD800 ≤ codePoint && codePoint ≤ 0xDFFF)
            || codePoint > 0x10FFFF || !isXmlCodePoint codePoint then
          false
        else validateUtf8Xml rounds (value.drop (length - 1))

-- =================================== nodes

inductive XmlIssue where
  | None
  | Malformed
  | Budget
deriving DecidableEq, Repr

structure XmlAttribute where
  name : HostText
  value : HostText
deriving DecidableEq, Repr

structure XmlNode where
  name : HostText
  attributes : List XmlAttribute
  text : HostText
  children : List XmlNode

def validFirst (ch : Nat) : Bool :=
  (97 ≤ ch && ch ≤ 122) || (65 ≤ ch && ch ≤ 90) || ch = 95 || ch = 58

def validRest (ch : Nat) : Bool :=
  validFirst ch || (48 ≤ ch && ch ≤ 57) || ch = 45 || ch = 46

def parseName (rest : HostText) : Except XmlIssue (HostText × HostText) :=
  if !rest.head?.any validFirst then .error .Malformed
  else
    let name := rest.takeWhile validRest
    if name.length > kMaxXmlNameBytes then .error .Budget
    else .ok (name, rest.drop name.length)

-- ================================ entities

def entityDigit (hexadecimal : Bool) (ch : Nat) : Option Nat :=
  if isDigitCode ch then some (ch - 48)
  else if hexadecimal && 97 ≤ ch && ch ≤ 102 then some (ch - 97 + 10)
  else if hexadecimal && 65 ≤ ch && ch ≤ 70 then some (ch - 65 + 10)
  else none

def entityCodePoint (hexadecimal : Bool) : HostText → Nat → Option Nat
  | [], codePoint => some codePoint
  | ch :: digits, codePoint =>
    match entityDigit hexadecimal ch with
    | none => none
    | some digit =>
      let base := if hexadecimal then 16 else 10
      if codePoint > (0x10FFFF - digit) / base then none
      else entityCodePoint hexadecimal digits (codePoint * base + digit)

def entityText (entity : HostText) : Option HostText :=
  if entity = codes "amp" then some [38]
  else if entity = codes "lt" then some [60]
  else if entity = codes "gt" then some [62]
  else if entity = codes "apos" then some [39]
  else if entity = codes "quot" then some [34]
  else if entity.head? = some 35 then
    let hexadecimal := entity[1]? = some 120 || entity[1]? = some 88
    let digits := entity.drop (if hexadecimal then 2 else 1)
    if digits = [] then none
    else (entityCodePoint hexadecimal digits 0).bind appendUtf8
  else none

/-- Whether all entities were decoded, and the output up to there. -/
def decodeEntities : Nat → HostText → HostText → Bool × HostText
  | _, [], output => (true, output)
  | 0, _ :: _, output => (false, output)
  | rounds + 1, ch :: raw, output =>
    if ch ≠ 38 then decodeEntities rounds raw (output ++ [ch])
    else
      match raw.findIdx? (· = 59) with
      | none => (false, output)
      | some place =>
        if place + 1 > 16 then (false, output)
        else
          match entityText (raw.take place) with
          | none => (false, output)
          | some text =>
            decodeEntities rounds (raw.drop (place + 1))
              (output ++ text)

def decoded (raw : HostText) : Bool × HostText :=
  decodeEntities raw.length raw []

-- ================================ elements

/-- An attribute, where one starts. -/
def parseAttribute (attributes : List XmlAttribute) (rest : HostText) :
    Except XmlIssue (XmlAttribute × HostText) :=
  match parseName rest with
  | .error issue => .error issue
  | .ok (name, rest) =>
    if attributes.any (·.name = name) then .error .Malformed
    else
      let rest := skipWhitespace rest
      if rest.head? ≠ some 61 then .error .Malformed
      else
        match skipWhitespace (rest.drop 1) with
        | [] => .error .Malformed
        | quote :: rest =>
          if quote ≠ 39 && quote ≠ 34 then .error .Malformed
          else
            match rest.findIdx? (· = quote) with
            | none => .error .Malformed
            | some place =>
              let raw := rest.take place
              if place > kMaxAttributeBytes then .error .Budget
              else if raw.contains 60 then .error .Malformed
              else
                let (ok, value) := decoded raw
                if !ok || value.length > kMaxAttributeBytes then
                  .error (if value.length > kMaxAttributeBytes then
                    .Budget else .Malformed)
                else .ok ({ name, value }, rest.drop (place + 1))

/-- The attributes of a tag, and whether it closes itself. -/
def parseAttributes : Nat → List XmlAttribute → HostText →
    Except XmlIssue (List XmlAttribute × Bool × HostText)
  | 0, _, _ => .error .Malformed
  | rounds + 1, attributes, rest =>
    let hadWhitespace := rest.head?.any isAsciiWhitespace
    let rest := skipWhitespace rest
    if rest = [] then .error .Malformed
    else if (codes "/>").isPrefixOf rest then
      .ok (attributes, true, rest.drop 2)
    else if rest.head? = some 62 then .ok (attributes, false, rest.drop 1)
    else if attributes.length ≥ kMaxAttributesPerElement then
      .error .Budget
    else if !hadWhitespace then .error .Malformed
    else
      match parseAttribute attributes rest with
      | .error issue => .error issue
      | .ok (added, rest) =>
        parseAttributes rounds (attributes ++ [added]) rest

/-- What stands at a place of an element's content. -/
inductive Content where
  | closing
  | comment
  | forbidden
  | child
  | text
deriving DecidableEq, Repr

def contentAt (rest : HostText) : Content :=
  if (codes "</").isPrefixOf rest then .closing
  else if (codes "<!--").isPrefixOf rest then .comment
  else if (codes "<!").isPrefixOf rest || (codes "<?").isPrefixOf rest then
    .forbidden
  else if rest.head? = some 60 then .child
  else .text

def parseClosing (name rest : HostText) : Except XmlIssue HostText :=
  match parseName (rest.drop 2) with
  | .error issue => .error issue
  | .ok (closingName, rest) =>
    let rest := skipWhitespace rest
    if closingName ≠ name || rest.head? ≠ some 62 then .error .Malformed
    else .ok (rest.drop 1)

def skipComment (rest : HostText) : Except XmlIssue HostText :=
  let inside := rest.drop 4
  match find (codes "-->") inside with
  | none => .error .Malformed
  | some place =>
    if (find (codes "--") inside).any (· < place) then .error .Malformed
    else .ok (inside.drop (place + 3))

/-- The text in front of the next tag. -/
def parseText (text rest : HostText) :
    Except XmlIssue (HostText × HostText) :=
  match rest.findIdx? (· = 60) with
  | none => .error .Malformed
  | some place =>
    if place > kMaxTextNodeBytes then .error .Budget
    else
      let (ok, value) := decoded (rest.take place)
      if !ok || value.length > kMaxTextNodeBytes then
        .error (if value.length > kMaxTextNodeBytes then .Budget
          else .Malformed)
      else if (text ++ value).length > kMaxBodyBytes then .error .Budget
      else .ok (text ++ value, rest.drop place)

mutual

/-- An element, with the count of elements behind it. -/
def parseElement : Nat → Nat → Nat → HostText →
    Except XmlIssue (XmlNode × Nat × HostText)
  | 0, _, _, _ => .error .Malformed
  | rounds + 1, depth, elements, rest =>
    if depth > kMaxXmlDepth then .error .Budget
    else if contentAt rest ≠ .child then .error .Malformed
    else
      match parseName (rest.drop 1) with
      | .error issue => .error issue
      | .ok (name, rest) =>
        if elements + 1 > kMaxXmlElements then .error .Budget
        else
          match parseAttributes (rest.length + 1) [] rest with
          | .error issue => .error issue
          | .ok (attributes, closed, rest) =>
            let node : XmlNode :=
              { name, attributes, text := [], children := [] }
            if closed then .ok (node, elements + 1, rest)
            else parseContent rounds depth (elements + 1) node rest

def parseContent : Nat → Nat → Nat → XmlNode → HostText →
    Except XmlIssue (XmlNode × Nat × HostText)
  | 0, _, _, _, _ => .error .Malformed
  | _, _, _, _, [] => .error .Malformed
  | rounds + 1, depth, elements, node, rest =>
    match contentAt rest with
    | .closing =>
      match parseClosing node.name rest with
      | .error issue => .error issue
      | .ok rest => .ok (node, elements, rest)
    | .comment =>
      match skipComment rest with
      | .error issue => .error issue
      | .ok rest => parseContent rounds depth elements node rest
    | .forbidden => .error .Malformed
    | .child =>
      match parseElement rounds (depth + 1) elements rest with
      | .error issue => .error issue
      | .ok (child, elements, rest) =>
        parseContent rounds depth elements
          { node with children := node.children ++ [child] } rest
    | .text =>
      match parseText node.text rest with
      | .error issue => .error issue
      | .ok (text, rest) =>
        parseContent rounds depth elements { node with text } rest

end

def skipDeclaration (rest : HostText) : Except XmlIssue HostText :=
  if (codes "<?xml").isPrefixOf rest && rest[5]?.any isAsciiWhitespace then
    match find (codes "?>") (rest.drop 5) with
    | none => .error .Malformed
    | some place =>
      if place + 5 > 1024 then .error .Malformed
      else .ok (skipWhitespace (rest.drop (place + 7)))
  else .ok rest

/-- `StrictXmlParser::parse`. -/
def parseXml (input : HostText) : Except XmlIssue XmlNode :=
  if input.length > kMaxBodyBytes then .error .Budget
  else if !validateUtf8Xml input.length input then .error .Malformed
  else
    let input :=
      if [0xEF, 0xBB, 0xBF].isPrefixOf input then input.drop 3 else input
    match skipDeclaration (skipWhitespace input) with
    | .error issue => .error issue
    | .ok rest =>
      match parseElement (2 * rest.length + 2) 1 0 rest with
      | .error issue => .error issue
      | .ok (root, _, rest) =>
        if skipWhitespace rest = [] then .ok root else .error .Malformed

end RemoteDesk.Moonlight.Core
