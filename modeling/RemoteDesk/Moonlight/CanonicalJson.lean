/-
Canonical payloads (services/MoonlightRecordPolicy.ets).

The scanner is a second reader of JSON: it only looks for the end of a
value, and for two keys of one object that are the same text after
normalisation. `canonicalizeValue` writes a value with normalised strings
and sorted keys. One key is special: the table from a normalised key to
its source is an ordinary object, in which `__proto__` cannot be set; what
is read under it is an object, and names the member "[object Object]".

The tables of Unicode normalisation are a parameter (`Normalizer`).
-/
import RemoteDesk.Moonlight.Record

namespace RemoteDesk.Moonlight

open Lib

/-- `normalize('NFC')`: it is done after one round, and leaves ASCII
alone. -/
structure Normalizer where
  nfc : Text → Text
  nfc_nfc : ∀ text, nfc (nfc text) = nfc text
  nfc_ascii : ∀ text, (∀ u ∈ text, u < 128) → nfc text = text

-- ================================= reasons

inductive MoonlightQuarantineReason where
  | none
  | unknownRecordType
  | unknownOwnerType
  | ownerMismatch
  | secretKindMismatch
  | invalidEnvelope
  | schemaTooNew
  | invalidPayloadJson
  | duplicateJsonKey
  | nonCanonicalPayload
  | payloadTooLarge
  | ciphertextTooLarge
  | hashMismatch
  | invalidMeta
  | referenceMismatch
  | invalidPayloadSemantics
  | invalidTombstone
  | secretPlaintextForbidden
deriving DecidableEq, Repr

-- ============================= the scanner

/-- The rest of a scan, or whether it stopped at a key met before. -/
abbrev Scan := Except Bool Text

/-- A string token with its quotes, and what follows it. Escapes are only
skipped. -/
def stringTokenFrom (escaped : Bool) : Text → Option (Text × Text)
  | [] => none
  | u :: rest =>
    if !escaped ∧ u = 34 then some ([34], rest)
    else if !escaped ∧ u < 32 then none
    else (stringTokenFrom (!escaped && u = 92) rest).map
      fun (token, rest) => (u :: token, rest)

def parseStringToken : Text → Option (Text × Text)
  | 34 :: rest => (stringTokenFrom false rest).map fun (token, rest) =>
    (34 :: token, rest)
  | _ => none

def consumeLiteral (literal text : Text) : Scan :=
  match stripLiteral literal text with
  | some rest => .ok rest
  | none => .error false

def consumeCharacter (u : Nat) : Text → Option Text
  | v :: rest => if v = u then some rest else none
  | [] => none

section Canonical

variable (N : Normalizer) {D : Type} [JsNumber D]

/-- A number that is finite. -/
def scanNumber (D : Type) [JsNumber D] (text : Text) : Scan :=
  match matchNumber text with
  | none => .error false
  | some (token, rest) =>
    match (JsNumber.read token : Option D) with
    | none => .error false
    | some _ => .ok rest

/-- The key a token stands for, normalised. -/
def scannedKey (D : Type) [JsNumber D] (token : Text) : Option Text :=
  match (parse token : Option (Json D)) with
  | some (.str key) => some (N.nfc key)
  | _ => none

mutual

def scanValue (D : Type) [JsNumber D] : Nat → Text → Scan
  | 0, _ => .error false
  | n + 1, text =>
    match skipSpace text with
    | [] => .error false
    | u :: rest =>
      if u = 123 then
        let rest := skipSpace rest
        match consumeCharacter 125 rest with
        | some rest => .ok rest
        | none => scanMembers D n [] rest
      else if u = 91 then
        let rest := skipSpace rest
        match consumeCharacter 93 rest with
        | some rest => .ok rest
        | none => scanItems D n rest
      else if u = 34 then
        match parseStringToken (u :: rest) with
        | some (_, rest) => .ok rest
        | none => .error false
      else if u = 116 then consumeLiteral (codes "true") (u :: rest)
      else if u = 102 then consumeLiteral (codes "false") (u :: rest)
      else if u = 110 then consumeLiteral (codes "null") (u :: rest)
      else scanNumber D (u :: rest)
termination_by structural n => n

/-- One round of the loop over the items of an array. -/
def scanItems (D : Type) [JsNumber D] : Nat → Text → Scan
  | 0, _ => .error false
  | n + 1, text =>
    match scanValue D n text with
    | .error duplicate => .error duplicate
    | .ok rest =>
      let rest := skipSpace rest
      match consumeCharacter 93 rest, consumeCharacter 44 rest with
      | some rest, _ => .ok rest
      | none, some rest => scanItems D n rest
      | none, none => .error false
termination_by structural n => n

/-- One round of the loop over the members of an object. -/
def scanMembers (D : Type) [JsNumber D] : Nat → List Text → Text → Scan
  | 0, _, _ => .error false
  | n + 1, normalizedKeys, text =>
    match parseStringToken text with
    | none => .error false
    | some (token, rest) =>
      match scannedKey N D token with
      | none => .error false
      | some key =>
        if key ∈ normalizedKeys then .error true
        else match consumeCharacter 58 (skipSpace rest) with
        | none => .error false
        | some rest =>
          match scanValue D n rest with
          | .error duplicate => .error duplicate
          | .ok rest =>
            let rest := skipSpace rest
            match consumeCharacter 125 rest,
                consumeCharacter 44 rest with
            | some rest, _ => .ok rest
            | none, some rest =>
              scanMembers D n (normalizedKeys ++ [key])
                (skipSpace rest)
            | none, none => .error false
termination_by structural n => n

end

/-- `scan()`; an error tells whether a key was met twice. -/
def scan (D : Type) [JsNumber D] (source : Text) : Except Bool Unit :=
  match scanValue N D (2 * source.length + 1) source with
  | .error duplicate => .error duplicate
  | .ok rest => if skipSpace rest = [] then .ok () else .error false

-- ========================= canonical texts

def proto : Text := codes "__proto__"

/-- What a plain object is as a key. -/
def objectText : Text := codes "[object Object]"

/-- All the results, when there is one for each key. -/
def sequence {α : Type} :
    List (Text × Option α) → Option (List (Text × α))
  | [] => some []
  | (_, none) :: _ => none
  | (k, some a) :: rest => (sequence rest).map ((k, a) :: ·)

/-- The members of an object under their normalised keys, in order: which
result belongs to a key is looked up by its source. -/
def assemble {α : Type} (members : List (Text × Option α)) :
    Option (List (Text × α)) :=
  let normalizedKeys := members.map fun p => N.nfc p.1
  if ¬ normalizedKeys.Nodup then none
  else
    let originalKey (key : Text) : Text :=
      if key = proto then objectText
      else ((members.find? fun p => N.nfc p.1 = key).map Prod.fst).getD []
    sequence ((normalizedKeys.insertionSort (· ≤ ·)).map fun key =>
      (key, (Members.lookup (originalKey key) members).join))

mutual

def canonicalizeValue : Json D → Option Text
  | .null => some (codes "null")
  | .str s => some (quote (N.nfc s))
  | .bool b => some (if b then codes "true" else codes "false")
  | .num d => some (JsNumber.write d)
  | .arr items => (canonicalizeItems items).map fun items =>
    91 :: [44].intercalate items ++ [93]
  | .obj members => (assemble N (canonicalizeMembers members)).map
      fun properties => 123 :: [44].intercalate
        (properties.map fun p => quote p.1 ++ 58 :: p.2) ++ [125]
termination_by structural value => value

def canonicalizeItems : List (Json D) → Option (List Text)
  | [] => some []
  | v :: rest =>
    match canonicalizeValue v with
    | none => none
    | some item => (canonicalizeItems rest).map (item :: ·)
termination_by structural items => items

def canonicalizeMembers : List (Text × Json D) → List (Text × Option Text)
  | [] => []
  | (k, v) :: rest => (k, canonicalizeValue v) :: canonicalizeMembers rest
termination_by structural members => members

end

/-- `moonlightCanonicalizeJson`: the canonical text, or the reason. -/
def moonlightCanonicalizeJson (D : Type) [JsNumber D] (source : Text) :
    Except MoonlightQuarantineReason Text :=
  if source = [] then .error .invalidPayloadJson
  else match scan N D source with
  | .error duplicate =>
    .error (if duplicate then .duplicateJsonKey else .invalidPayloadJson)
  | .ok () =>
    match (parse source : Option (Json D)) with
    | none => .error .invalidPayloadJson
    | some parsed =>
      match canonicalizeValue N parsed with
      | none => .error .invalidPayloadJson
      | some canonical => .ok canonical

end Canonical

end RemoteDesk.Moonlight
