/-
Cloud download transactions (services/CloudDownloadTransactionPolicy.ets).

An envelope is written before a download changes anything, and read back
after a crash. The builder bounds the payload, the reader the whole text,
where the payload stands escaped: an envelope comes back exactly if its
text is not too long (`parse_envelope_iff`). A generation that is no number
passes both comparisons of the reader (`refused_iff`).
-/
import RemoteDesk.Lib.Double
import RemoteDesk.Lib.SecureHash
import RemoteDesk.Moonlight.RecordPolicy

namespace RemoteDesk.Cloud

open Lib
open Moonlight (utf8Units)

-- =============================== envelopes

inductive CloudDownloadTransactionOperation where
  | startupBootstrap
  | manualDownload
  | selectionReenable
  | vncScopeReenable
deriving DecidableEq, Repr

def CloudDownloadTransactionOperation.name :
    CloudDownloadTransactionOperation → Text
  | .startupBootstrap => codes "startup_bootstrap"
  | .manualDownload => codes "manual_download"
  | .selectionReenable => codes "selection_reenable"
  | .vncScopeReenable => codes "vnc_scope_reenable"

structure CloudDownloadTransactionEnvelope (D : Type) where
  version : D
  operation : CloudDownloadTransactionOperation
  ownerScopeId : Text
  storeIdentity : Text
  generation : D
  createdAt : D
  payloadSha256 : Text
  payloadJson : Text

variable {D : Type} [JsDouble D]

def CLOUD_DOWNLOAD_TRANSACTION_VERSION : D := JsNumber.ofInt 1
def CLOUD_DOWNLOAD_TRANSACTION_MAX_BYTES : Nat := 16 * 1024 * 1024
def CLOUD_DOWNLOAD_TRANSACTION_MAX_PAYLOAD_BYTES : Nat := 8 * 1024 * 1024

def sha256Hex (bytes : List UInt8) : Text :=
  (sha256 bytes).flatMap fun b =>
    [digitCode (b.toNat / 16), digitCode (b.toNat % 16)]

def cloudDownloadTransactionEnvelope
    (operation : CloudDownloadTransactionOperation)
    (ownerScopeId storeIdentity : Text) (generation : D)
    (payloadJson : Text) (now : D) :
    Option (CloudDownloadTransactionEnvelope D) :=
  if Sftp.trim ownerScopeId = [] ∨ Sftp.trim storeIdentity = []
      ∨ generation ≤ JsNumber.ofInt 0 ∨ payloadJson = []
      ∨ (utf8Units payloadJson).length >
        CLOUD_DOWNLOAD_TRANSACTION_MAX_PAYLOAD_BYTES then none
  else some
    { version := CLOUD_DOWNLOAD_TRANSACTION_VERSION
      operation
      ownerScopeId
      storeIdentity
      generation := JsDouble.floor generation
      createdAt := max (JsNumber.ofInt 1) (JsDouble.floor now)
      payloadSha256 := sha256Hex (utf8Units payloadJson)
      payloadJson }

/-- The members, in the order of the source. -/
def CloudDownloadTransactionEnvelope.members
    (e : CloudDownloadTransactionEnvelope D) : List (Text × Json D) :=
  [(codes "version", numberJson e.version),
    (codes "operation", .str e.operation.name),
    (codes "ownerScopeId", .str e.ownerScopeId),
    (codes "storeIdentity", .str e.storeIdentity),
    (codes "generation", numberJson e.generation),
    (codes "createdAt", numberJson e.createdAt),
    (codes "payloadSha256", .str e.payloadSha256),
    (codes "payloadJson", .str e.payloadJson)]

def CloudDownloadTransactionEnvelope.json
    (e : CloudDownloadTransactionEnvelope D) : Json D := .obj e.members

-- ================================= reading

/-- What the language makes of a member that is not of its declared type,
or is not there. `toNumber` gives nothing for `NaN`, `encode` where the
encoder throws. -/
structure Coercions (D : Type) [JsDouble D] where
  toNumber : Option (Json D) → Option D
  encode : Option (Json D) → Option (List UInt8)
  toNumber_undefined : toNumber none = none
  toNumber_null : toNumber (some .null) = some (JsNumber.ofInt 0)
  toNumber_num : ∀ d, toNumber (some (.num d)) = some d
  encode_str : ∀ s, encode (some (.str s)) = some (utf8Units s)

section Reading

variable (C : Coercions D)

/-- `value <= bound`, where nothing is at most anything if it is `NaN`. -/
def atMost (value : Option (Json D)) (bound : D) : Bool :=
  (C.toNumber value).any fun d => d ≤ bound

/-- `value > bound`. -/
def exceeds (value : Option (Json D)) (bound : D) : Bool :=
  (C.toNumber value).any fun d => bound < d

/-- The payload is the one whose hash is written down. A hash that is no
text has no such length, or is no text of it. -/
def payloadMatches (v : Json D) : Bool :=
  match member "payloadSha256" v, C.encode (member "payloadJson" v) with
  | some (.str hash), some bytes =>
    !isText [] (member "payloadJson" v) && hash.length = 64
      && bytes.length ≤ CLOUD_DOWNLOAD_TRANSACTION_MAX_PAYLOAD_BYTES
      && sha256Hex bytes = hash
  | _, _ => false

/-- Every check but the two of the generation. -/
def envelopeMatches (ownerScopeId storeIdentity : Text) (v : Json D) : Bool :=
  isNumber CLOUD_DOWNLOAD_TRANSACTION_VERSION (member "version" v)
    && (isText (codes "startup_bootstrap") (member "operation" v)
      || isText (codes "manual_download") (member "operation" v)
      || isText (codes "selection_reenable") (member "operation" v)
      || isText (codes "vnc_scope_reenable") (member "operation" v))
    && isText ownerScopeId (member "ownerScopeId" v)
    && isText storeIdentity (member "storeIdentity" v)
    && !atMost C (member "createdAt" v) (JsNumber.ofInt 0)
    && payloadMatches C v

def generationPasses (currentGeneration : D) (v : Json D) : Bool :=
  !atMost C (member "generation" v) (JsNumber.ofInt 0)
    && !exceeds C (member "generation" v) currentGeneration

/-- A text of a length that is read at all, as a value. -/
def readEnvelope (raw : Text) : Option (Json D) :=
  if raw = [] ∨ (utf8Units raw).length > CLOUD_DOWNLOAD_TRANSACTION_MAX_BYTES
  then none
  else parse raw

/-- Every refusal gives nothing, and so does everything that throws: the
order of the checks does not show. -/
def parseCloudDownloadTransactionEnvelope (raw ownerScopeId
    storeIdentity : Text) (currentGeneration : D) : Option (Json D) :=
  match readEnvelope raw with
  | none => none
  | some parsed =>
    if envelopeMatches C ownerScopeId storeIdentity parsed
        && generationPasses C currentGeneration parsed then some parsed
    else none

end Reading

-- ================================== length

/-- Bytes of a text in UTF-8. -/
def byteLength (s : Text) : Nat := (utf8Units s).length

/-- Bytes of a text as it stands inside quotes. -/
def escapedBytes (s : Text) : Nat := byteLength (quoteFrom false s)

/-- Bytes of a unit that is no half of a pair. -/
def unitBytes (u : Nat) : Nat :=
  if isHigh u || isLow u then 3
  else if u < 0x80 then 1 else if u < 0x800 then 2 else 3

variable {u : Nat}

theorem byteLength_pair {v : Nat} (hu : isHigh u = true) (hv : isLow v = true)
    (rest : Text) : byteLength (u :: v :: rest) = 4 + byteLength rest := by
  show (if isHigh u = true then (if isLow v = true then _ else _)
    else _ : List UInt8).length = _
  rw [if_pos hu, if_pos hv, List.length_append]
  rfl

/-- The first half of a pair that is not there. -/
theorem byteLength_high (hu : isHigh u = true) {rest : Text}
    (h : rest.head?.any isLow = false) :
    byteLength (u :: rest) = 3 + byteLength rest := by
  cases rest with
  | nil =>
    show (if isHigh u = true then [0xef, 0xbf, 0xbd]
      else _ : List UInt8).length = _
    rw [if_pos hu]
    rfl
  | cons v rest =>
    have hv : ¬ isLow v = true := by simpa using h
    show (if isHigh u = true then (if isLow v = true then _ else _)
      else _ : List UInt8).length = _
    rw [if_pos hu, if_neg hv, List.length_append]
    rfl

theorem utf8Units_plain (hu : ¬ isHigh u = true) (rest : Text) :
    utf8Units (u :: rest) = if isLow u then [0xef, 0xbf, 0xbd] ++ utf8Units rest
      else if u < 0x80 then UInt8.ofNat u :: utf8Units rest
      else if u < 0x800 then
        [UInt8.ofNat (0xc0 + u / 64), UInt8.ofNat (0x80 + u % 64)]
          ++ utf8Units rest
      else
        [UInt8.ofNat (0xe0 + u / 4096), UInt8.ofNat (0x80 + u / 64 % 64),
          UInt8.ofNat (0x80 + u % 64)] ++ utf8Units rest := by
  cases rest with
  | nil =>
    show (if isHigh u = true then _ else _ : List UInt8) = _
    rw [if_neg hu]
  | cons v rest =>
    show (if isHigh u = true then _ else _ : List UInt8) = _
    rw [if_neg hu]

theorem byteLength_unit {rest : Text}
    (h : isHigh u = true → rest.head?.any isLow = false) :
    byteLength (u :: rest) = unitBytes u + byteLength rest := by
  unfold unitBytes
  by_cases hu : isHigh u = true
  · rw [hu, Bool.true_or, if_pos rfl, byteLength_high hu (h hu)]
  · rw [byteLength, utf8Units_plain hu]
    simp only [Bool.not_eq_true] at hu
    rw [hu, Bool.false_or]
    split
    · exact List.length_append
    split
    · exact Nat.add_comm _ 1
    split
    · exact List.length_append
    · exact List.length_append

/-- A unit that is no second half stands for itself, whatever it follows. -/
theorem byteLength_append_cons (a : Text) (b : Text) (hu : isLow u = false) :
    byteLength (a ++ u :: b) = byteLength a + byteLength (u :: b) := by
  induction hn : a.length using Nat.strong_induction_on generalizing a with
  | _ n ih =>
    match a, hn with
    | [], _ => exact (Nat.zero_add _).symm
    | [x], _ =>
      have hhead : isHigh x = true →
          (u :: b).head?.any isLow = false := fun _ => by simp [hu]
      show byteLength (x :: u :: b) = byteLength [x] + byteLength (u :: b)
      rw [@byteLength_unit x [] fun _ => rfl,
        byteLength_unit hhead]
      rfl
    | x :: y :: a, hn =>
      by_cases hpair : isHigh x = true ∧ isLow y = true
      · have hrest := ih a.length (by simp at hn; omega) a rfl
        show byteLength (x :: y :: (a ++ u :: b))
          = byteLength (x :: y :: a) + byteLength (u :: b)
        rw [byteLength_pair hpair.1 hpair.2,
          byteLength_pair hpair.1 hpair.2, hrest, Nat.add_assoc]
      · have hrest := ih (y :: a).length (by simp at hn ⊢; omega)
          (y :: a) rfl
        have hhead : ∀ c, isHigh x = true →
            (y :: c).head?.any isLow = false := fun c hx => by
          simpa using fun hy => hpair ⟨hx, hy⟩
        show byteLength (x :: y :: (a ++ u :: b))
          = byteLength (x :: y :: a) + byteLength (u :: b)
        rw [byteLength_unit (hhead _), byteLength_unit (hhead _),
          Nat.add_assoc, ← hrest]
        rfl

theorem byteLength_cons (hu : u < 0x80) (rest : Text) :
    byteLength (u :: rest) = 1 + byteLength rest := by
  have hhigh : isHigh u = false := by
    simp [isHigh]
    omega
  have hlow : isLow u = false := by
    simp [isLow]
    omega
  rw [byteLength_unit fun h => by simp [hhigh] at h, unitBytes, hhigh, hlow]
  simp [hu]

theorem byteLength_ascii {a : Text} (ha : ∀ u ∈ a, u < 0x80) (b : Text) :
    byteLength (a ++ b) = a.length + byteLength b := by
  induction a with
  | nil => exact (Nat.zero_add _).symm
  | cons u a ih =>
    obtain ⟨hu, ha⟩ := List.forall_mem_cons.mp ha
    rw [List.cons_append, byteLength_cons hu, ih ha, List.length_cons]
    omega

theorem byteLength_quote (s b : Text) :
    byteLength (quote s ++ b) = escapedBytes s + 2 + byteLength b := by
  have htext : quote s ++ b = 34 :: (quoteFrom false s ++ 34 :: b) := by
    simp [quote]
  rw [htext, byteLength_cons (by decide),
    byteLength_append_cons _ _ (by decide), byteLength_cons (by decide)]
  unfold escapedBytes
  omega

theorem byteLength_write (d : D) (b : Text) :
    byteLength (JsNumber.write d ++ b)
      = (JsNumber.write d).length + byteLength b :=
  byteLength_ascii (write_ascii d) b

-- ============================== round trip

theorem length_sha256Hex (bytes : List UInt8) :
    (sha256Hex bytes).length = 64 := by
  have hhex : ∀ l : List UInt8, (l.flatMap fun b =>
      [digitCode (b.toNat / 16), digitCode (b.toNat % 16)]).length
        = 2 * l.length := by
    intro l
    induction l with
    | nil => rfl
    | cons b l ih =>
      rw [List.flatMap_cons, List.length_append, ih]
      show 2 + 2 * l.length = 2 * (l.length + 1)
      omega
  rw [sha256Hex, hhex, sha256]
  simp only [List.flatMap_cons, List.flatMap_nil, List.length_append,
    wordBytes, length_beBytes, List.length_nil]

variable {e : CloudDownloadTransactionEnvelope D}

theorem nodup_keys : (Members.keys e.members).Nodup := by
  show [codes "version", codes "operation", codes "ownerScopeId",
    codes "storeIdentity", codes "generation", codes "createdAt",
    codes "payloadSha256", codes "payloadJson"].Nodup
  decide

theorem member_text {key : String} {t : Text}
    (h : Members.lookup (codes key) e.members = some (.str t)) :
    member key e.json.sorted = some (.str t) := member_sorted nodup_keys h

theorem member_number {key : String} {d : D}
    (h : Members.lookup (codes key) e.members = some (numberJson d)) :
    member key e.json.sorted = some (numberJson d) := by
  rw [CloudDownloadTransactionEnvelope.json, member_sorted nodup_keys h,
    numberJson]
  split
  · rfl
  · rfl

variable {operation : CloudDownloadTransactionOperation}
    {ownerScopeId storeIdentity payloadJson : Text} {generation now : D}

/-- What an envelope that was built holds. -/
theorem built_iff : cloudDownloadTransactionEnvelope operation ownerScopeId
      storeIdentity generation payloadJson now = some e ↔
    (Sftp.trim ownerScopeId ≠ [] ∧ Sftp.trim storeIdentity ≠ []
      ∧ JsNumber.ofInt 0 < generation ∧ payloadJson ≠ []
      ∧ byteLength payloadJson ≤ CLOUD_DOWNLOAD_TRANSACTION_MAX_PAYLOAD_BYTES)
    ∧ e = ⟨CLOUD_DOWNLOAD_TRANSACTION_VERSION, operation, ownerScopeId,
      storeIdentity, JsDouble.floor generation,
      max (JsNumber.ofInt 1) (JsDouble.floor now),
      sha256Hex (utf8Units payloadJson), payloadJson⟩ := by
  unfold cloudDownloadTransactionEnvelope
  by_cases h : Sftp.trim ownerScopeId = [] ∨ Sftp.trim storeIdentity = []
      ∨ generation ≤ JsNumber.ofInt 0 ∨ payloadJson = []
      ∨ (utf8Units payloadJson).length >
        CLOUD_DOWNLOAD_TRANSACTION_MAX_PAYLOAD_BYTES
  · rw [if_pos h]
    constructor
    · intro hnone
      cases hnone
    · rintro ⟨⟨h1, h2, h3, h4, h5⟩, -⟩
      rcases h with h | h | h | h | h
      · exact absurd h h1
      · exact absurd h h2
      · exact absurd h3 (not_lt.mpr h)
      · exact absurd h h4
      · exact absurd h5 (not_le.mpr h)
  · rw [if_neg h]
    simp only [not_or, not_le, gt_iff_lt, not_lt] at h
    constructor
    · intro hsome
      exact ⟨h, (Option.some.inj hsome).symm⟩
    · rintro ⟨-, he⟩
      rw [he]

omit [JsDouble D] in
/-- An operation of ours is one that the reader knows. -/
theorem operation_known (operation : CloudDownloadTransactionOperation) :
    (isText (codes "startup_bootstrap") (some (.str operation.name : Json D))
      || isText (codes "manual_download") (some (.str operation.name : Json D))
      || isText (codes "selection_reenable")
        (some (.str operation.name : Json D))
      || isText (codes "vnc_scope_reenable")
        (some (.str operation.name : Json D))) = true := by
  cases operation with
  | startupBootstrap => rfl
  | manualDownload => rfl
  | selectionReenable => rfl
  | vncScopeReenable => rfl

variable (C : Coercions D)

/-- A time that is not finite is written as `null`, which counts as zero. -/
theorem atMost_createdAt {d : D} (h : JsNumber.ofInt 1 ≤ d) :
    atMost C (some (numberJson d)) (JsNumber.ofInt 0)
      = !JsDouble.isFinite d := by
  unfold numberJson atMost
  by_cases hd : JsDouble.isFinite d = true
  · rw [if_pos hd, C.toNumber_num, hd]
    exact decide_eq_false (not_le.mpr (JsDouble.zero_lt_one.trans_le h))
  · rw [if_neg hd, C.toNumber_null]
    simp only [Bool.not_eq_true] at hd
    rw [hd]
    exact decide_eq_true (le_refl _)

/-- Every check but the length, of an envelope that was built. -/
theorem checks_built (hbuilt : cloudDownloadTransactionEnvelope operation
      ownerScopeId storeIdentity generation payloadJson now = some e)
    (hinteger : isInteger generation = true) {currentGeneration : D}
    (hcurrent : generation ≤ currentGeneration) :
    (envelopeMatches C ownerScopeId storeIdentity e.json.sorted
      && generationPasses C currentGeneration e.json.sorted)
      = JsDouble.isFinite e.createdAt := by
  obtain ⟨⟨-, -, hpos, hpayload, hlen⟩, rfl⟩ := built_iff.mp hbuilt
  simp only [isInteger, Bool.and_eq_true, decide_eq_true_eq] at hinteger
  have hversion : JsDouble.isFinite
      (CLOUD_DOWNLOAD_TRANSACTION_VERSION : D) = true :=
    JsDouble.finite_ofInt 1 (by decide)
  have hfloor : JsDouble.isFinite (JsDouble.floor generation) = true :=
    JsDouble.finite_floor hinteger.1
  have hgeneration : ¬ JsDouble.floor generation ≤ JsNumber.ofInt 0 := by
    rw [hinteger.2]
    exact not_le.mpr hpos
  have hbound : ¬ currentGeneration < JsDouble.floor generation := by
    rw [hinteger.2]
    exact not_lt.mpr hcurrent
  unfold envelopeMatches generationPasses payloadMatches
  rw [@member_number D _ _ "version" _ rfl, numberJson_finite hversion,
    @member_text D _ _ "operation" _ rfl,
    @member_text D _ _ "ownerScopeId" _ rfl,
    @member_text D _ _ "storeIdentity" _ rfl,
    @member_number D _ _ "createdAt" _ rfl, atMost_createdAt C (le_max_left _ _),
    @member_number D _ _ "generation" _ rfl, numberJson_finite hfloor,
    @member_text D _ _ "payloadSha256" _ rfl,
    @member_text D _ _ "payloadJson" _ rfl, C.encode_str, operation_known,
    isText_self, isText_self]
  unfold atMost exceeds
  rw [C.toNumber_num]
  simp [isNumber, hgeneration, hbound, length_sha256Hex, isText]
  exact fun _ => ⟨hpayload, hlen⟩

/-- Bytes of an envelope's text: the texts that are given count as they
stand escaped. -/
def envelopeBytes (operation : CloudDownloadTransactionOperation)
    (ownerScopeId storeIdentity payloadJson : Text)
    (generation createdAt : D) : Nat :=
  191 + (JsNumber.write (CLOUD_DOWNLOAD_TRANSACTION_VERSION : D)).length
    + escapedBytes operation.name + escapedBytes ownerScopeId
    + escapedBytes storeIdentity + (JsNumber.write generation).length
    + (JsNumber.write createdAt).length + escapedBytes payloadJson

/-- A unit that stands inside quotes as it is, in one byte. -/
def isPlain (u : Nat) : Bool := 32 ≤ u && u < 0x80 && u ≠ 34 && u ≠ 92

theorem escaped_plain {s : Text} (h : s.all isPlain = true) :
    escapedBytes s = s.length := by
  have hplain : ∀ u ∈ s, 32 ≤ u ∧ u < 0x80 ∧ u ≠ 34 ∧ u ≠ 92 := by
    intro u hu
    have := List.all_eq_true.mp h u hu
    simpa [isPlain, and_assoc] using this
  have hquote : quoteFrom false s = s := by
    clear h
    induction s with
    | nil => rfl
    | cons u s ih =>
      obtain ⟨⟨h32, h128, h34, h92⟩, hs⟩ := List.forall_mem_cons.mp hplain
      have hhigh : isHigh u = false := by
        simp [isHigh]
        omega
      have hlow : isLow u = false := by
        simp [isLow]
        omega
      rw [quoteFrom, hhigh, hlow, ih hs]
      unfold quoteUnit
      rw [if_neg (by omega), if_neg (by omega), if_neg (by omega),
        if_neg (by omega), if_neg (by omega), if_neg (by omega),
        if_neg (by simp; omega)]
      rfl
  have hbytes := byteLength_ascii (fun u hu => (hplain u hu).2.1) []
  rw [List.append_nil] at hbytes
  rw [escapedBytes, hquote, hbytes]
  rfl

theorem escaped_sha256Hex (bytes : List UInt8) :
    escapedBytes (sha256Hex bytes) = 64 := by
  rw [escaped_plain, length_sha256Hex]
  have hdigit : ∀ d < 16, isPlain (digitCode d) = true := by decide
  rw [List.all_eq_true]
  intro u hu
  obtain ⟨b, -, hb⟩ := List.mem_flatMap.mp hu
  have hlt := b.toNat_lt
  simp only [List.mem_cons, List.not_mem_nil, or_false] at hb
  rcases hb with rfl | rfl
  · exact hdigit _ (by omega)
  · exact hdigit _ (by omega)

theorem length_text (hbuilt : cloudDownloadTransactionEnvelope operation
      ownerScopeId storeIdentity generation payloadJson now = some e)
    (hinteger : isInteger generation = true)
    (hfinite : JsDouble.isFinite e.createdAt = true) :
    byteLength e.json.text = envelopeBytes operation ownerScopeId
      storeIdentity payloadJson generation e.createdAt := by
  obtain ⟨-, rfl⟩ := built_iff.mp hbuilt
  simp only [isInteger, Bool.and_eq_true, decide_eq_true_eq] at hinteger
  have hversion : JsDouble.isFinite
      (CLOUD_DOWNLOAD_TRANSACTION_VERSION : D) = true :=
    JsDouble.finite_ofInt 1 (by decide)
  have hkeys : escapedBytes (codes "version") = 7
      ∧ escapedBytes (codes "operation") = 9
      ∧ escapedBytes (codes "ownerScopeId") = 12
      ∧ escapedBytes (codes "storeIdentity") = 13
      ∧ escapedBytes (codes "generation") = 10
      ∧ escapedBytes (codes "createdAt") = 9
      ∧ escapedBytes (codes "payloadSha256") = 13
      ∧ escapedBytes (codes "payloadJson") = 11 :=
    ⟨escaped_plain rfl, escaped_plain rfl, escaped_plain rfl,
      escaped_plain rfl, escaped_plain rfl, escaped_plain rfl,
      escaped_plain rfl, escaped_plain rfl⟩
  simp only [CloudDownloadTransactionEnvelope.json,
    CloudDownloadTransactionEnvelope.members, Json.text, membersText,
    moreMembers, numberJson_finite hversion, numberJson_finite hfinite,
    hinteger.2, numberJson_finite hinteger.1, List.append_assoc,
    List.cons_append, List.append_nil,
    byteLength_quote, byteLength_write, hkeys, escaped_sha256Hex,
    byteLength_cons (show 123 < 0x80 by decide),
    byteLength_cons (show 125 < 0x80 by decide),
    byteLength_cons (show 58 < 0x80 by decide),
    byteLength_cons (show 44 < 0x80 by decide)]
  unfold envelopeBytes
  have hnil : byteLength [] = 0 := rfl
  rw [hnil]
  clear hkeys
  ring

/-- An envelope comes back exactly if its text is not too long and the
time of its making is finite. -/
theorem parse_envelope_iff (hbuilt : cloudDownloadTransactionEnvelope
      operation ownerScopeId storeIdentity generation payloadJson now = some e)
    (hinteger : isInteger generation = true) {currentGeneration : D}
    (hcurrent : generation ≤ currentGeneration) :
    parseCloudDownloadTransactionEnvelope C e.json.text ownerScopeId
        storeIdentity currentGeneration = some e.json.sorted ↔
      JsDouble.isFinite e.createdAt = true
        ∧ envelopeBytes operation ownerScopeId storeIdentity payloadJson
          generation e.createdAt ≤ CLOUD_DOWNLOAD_TRANSACTION_MAX_BYTES := by
  have hchecks := checks_built C hbuilt hinteger hcurrent
  have hne : e.json.text ≠ [] := List.cons_ne_nil _ _
  unfold parseCloudDownloadTransactionEnvelope readEnvelope
  by_cases hfinite : JsDouble.isFinite e.createdAt = true
  · have hbytes := length_text hbuilt hinteger hfinite
    by_cases hlen : byteLength e.json.text
        ≤ CLOUD_DOWNLOAD_TRANSACTION_MAX_BYTES
    · have hread : ¬ (e.json.text = [] ∨ (utf8Units e.json.text).length
          > CLOUD_DOWNLOAD_TRANSACTION_MAX_BYTES) := by
        rw [not_or]
        exact ⟨hne, not_lt.mpr hlen⟩
      rw [if_neg hread, parse_text_sorted]
      dsimp only
      rw [if_pos (hchecks.trans hfinite), ← hbytes]
      exact iff_of_true rfl ⟨hfinite, hlen⟩
    · rw [if_pos (.inr (not_le.mp hlen)), ← hbytes]
      exact iff_of_false (fun h => (by cases h)) (fun h => hlen h.2)
  · refine iff_of_false ?_ (fun h => hfinite h.1)
    split
    · exact fun h => (by cases h)
    · rename_i parsed hread
      split at hread
      · cases hread
      · rw [parse_text_sorted] at hread
        obtain rfl := Option.some.inj hread
        rw [if_neg (by rw [hchecks]; exact hfinite)]
        exact fun h => (by cases h)

-- ================================= refusal

/-- The payload of a value is the one that was hashed, and its scope, its
store and its generation are the ones at hand. -/
structure Matched (ownerScopeId storeIdentity : Text) (currentGeneration : D)
    (v : Json D) : Prop where
  payload : ∃ bytes, C.encode (member "payloadJson" v) = some bytes
    ∧ member "payloadSha256" v = some (.str (sha256Hex bytes))
  scope : member "ownerScopeId" v = some (.str ownerScopeId)
  store : member "storeIdentity" v = some (.str storeIdentity)
  generation : ∃ g, C.toNumber (member "generation" v) = some g
    ∧ JsNumber.ofInt 0 < g ∧ g ≤ currentGeneration

theorem payload_of_matches {v : Json D} (h : payloadMatches C v = true) :
    ∃ bytes, C.encode (member "payloadJson" v) = some bytes
      ∧ member "payloadSha256" v = some (.str (sha256Hex bytes)) := by
  unfold payloadMatches at h
  split at h
  · rename_i hash bytes hhash hbytes
    simp only [Bool.and_eq_true, decide_eq_true_eq] at h
    refine ⟨bytes, hbytes, ?_⟩
    rw [hhash, h.2]
  · cases h

/-- What is read back is matched, or its generation is no number. -/
theorem refused_iff (raw scope store : Text) (bound : D) :
    (∀ v, parseCloudDownloadTransactionEnvelope C raw scope store bound
        = some v → Matched C scope store bound v) ↔
      ∀ v, readEnvelope raw = some v → envelopeMatches C scope store v = true →
        C.toNumber (member "generation" v) ≠ none := by
  constructor
  · intro h v hread hmatches hnan
    have hpasses : generationPasses C bound v = true := by
      unfold generationPasses atMost exceeds
      rw [hnan]
      rfl
    have haccepted : parseCloudDownloadTransactionEnvelope C raw scope store
        bound = some v := by
      unfold parseCloudDownloadTransactionEnvelope
      rw [hread]
      dsimp only
      rw [if_pos (by rw [hmatches, hpasses]; rfl)]
    obtain ⟨g, hg, -⟩ := (h v haccepted).generation
    rw [hnan] at hg
    cases hg
  · intro h v haccepted
    unfold parseCloudDownloadTransactionEnvelope at haccepted
    split at haccepted
    · cases haccepted
    rename_i parsed hread
    split at haccepted
    · rename_i hchecks
      obtain rfl := Option.some.inj haccepted
      rw [Bool.and_eq_true] at hchecks
      obtain ⟨hmatches, hpasses⟩ := hchecks
      obtain ⟨g, hg⟩ := Option.ne_none_iff_exists'.mp (h _ hread hmatches)
      have hfields := hmatches
      unfold envelopeMatches at hfields
      simp only [Bool.and_eq_true] at hfields
      obtain ⟨⟨⟨⟨-, hscope⟩, hstore⟩, -⟩, hpayload⟩ := hfields
      refine ⟨payload_of_matches C hpayload, isText_iff.mp hscope,
        isText_iff.mp hstore, g, hg, ?_⟩
      unfold generationPasses atMost exceeds at hpasses
      rw [hg] at hpasses
      simpa using hpasses
    · cases haccepted

/-- An envelope is recovered exactly if its text fits, and a text that is
not the one asked for is refused exactly if its generation is a number or
another check refuses it. -/
theorem download_transaction_recovered
    (hbuilt : cloudDownloadTransactionEnvelope operation ownerScopeId
      storeIdentity generation payloadJson now = some e)
    (hinteger : isInteger generation = true) {currentGeneration : D}
    (hcurrent : generation ≤ currentGeneration)
    (raw scope store : Text) (bound : D) :
    (parseCloudDownloadTransactionEnvelope C e.json.text ownerScopeId
          storeIdentity currentGeneration = some e.json.sorted ↔
        JsDouble.isFinite e.createdAt = true
          ∧ envelopeBytes operation ownerScopeId storeIdentity payloadJson
            generation e.createdAt ≤ CLOUD_DOWNLOAD_TRANSACTION_MAX_BYTES)
      ∧ ((∀ v, parseCloudDownloadTransactionEnvelope C raw scope store bound
            = some v → Matched C scope store bound v) ↔
          ∀ v, readEnvelope raw = some v →
            envelopeMatches C scope store v = true →
              C.toNumber (member "generation" v) ≠ none) :=
  ⟨parse_envelope_iff C hbuilt hinteger hcurrent,
    refused_iff C raw scope store bound⟩

-- ================ quotes, and nothing else

/-- A script of integers; a text that spells one counts as it. -/
def plainCoercions : Coercions Int where
  toNumber := fun v => match v with
    | some (.num d) => some d
    | some .null => some 0
    | some (.bool b) => some (if b then 1 else 0)
    | some (.str s) => readInteger s
    | _ => none
  encode := fun v => match v with
    | some (.str s) => some (utf8Units s)
    | _ => none
  toNumber_undefined := rfl
  toNumber_null := rfl
  toNumber_num := fun _ => rfl
  encode_str := fun _ => rfl

theorem download_transaction_recovered_small :
    ∃ e, cloudDownloadTransactionEnvelope .manualDownload (codes "o")
        (codes "s") (7 : Int) (codes "x") 100 = some e
      ∧ parseCloudDownloadTransactionEnvelope plainCoercions e.json.text
        (codes "o") (codes "s") 8 = some e.json.sorted := by
  have hlen : byteLength (codes "x")
      ≤ CLOUD_DOWNLOAD_TRANSACTION_MAX_PAYLOAD_BYTES := by
    show 1 ≤ 8 * 1024 * 1024
    norm_num
  have hbuilt := (@built_iff Int _ _ .manualDownload (codes "o") (codes "s")
    (codes "x") 7 100).mpr
      ⟨⟨by decide, by decide, by decide, by decide, hlen⟩, rfl⟩
  refine ⟨_, hbuilt, (download_transaction_recovered plainCoercions hbuilt rfl
    (by decide : (7 : Int) ≤ 8) [] [] [] 0).1.mpr ⟨rfl, ?_⟩⟩
  unfold envelopeBytes
  rw [@escaped_plain (codes "o") rfl, @escaped_plain (codes "s") rfl,
    @escaped_plain (codes "x") rfl,
    @escaped_plain CloudDownloadTransactionOperation.manualDownload.name rfl]
  show 191 + 1 + 15 + 1 + 1 + 1 + 3 + 1 ≤ 16 * 1024 * 1024
  norm_num

theorem byteLength_quotes (n : Nat) :
    byteLength (List.replicate n 34) = n := by
  have hbytes := @byteLength_ascii (List.replicate n 34)
    (fun u hu => by rw [List.eq_of_mem_replicate hu]; decide) []
  rw [List.append_nil, List.length_replicate] at hbytes
  exact hbytes

theorem escapedBytes_quotes (n : Nat) :
    escapedBytes (List.replicate n 34) = 2 * n := by
  unfold escapedBytes
  induction n with
  | zero => rfl
  | succ n ih =>
    have hstep : quoteFrom false (List.replicate (n + 1) 34)
        = 92 :: 34 :: quoteFrom false (List.replicate n 34) := rfl
    rw [hstep, byteLength_cons (by decide), byteLength_cons (by decide), ih]
    omega

theorem quotes_lost {n : Nat} (hpos : 0 < n)
    (hfit : n ≤ CLOUD_DOWNLOAD_TRANSACTION_MAX_PAYLOAD_BYTES)
    (hlong : CLOUD_DOWNLOAD_TRANSACTION_MAX_BYTES ≤ 2 * n) :
    ∃ e, cloudDownloadTransactionEnvelope .manualDownload (codes "o")
        (codes "s") (1 : Int) (List.replicate n 34) 1 = some e
      ∧ parseCloudDownloadTransactionEnvelope plainCoercions e.json.text
        (codes "o") (codes "s") 1 ≠ some e.json.sorted := by
  have hne : List.replicate n 34 ≠ [] := by
    rw [Ne, List.replicate_eq_nil_iff]
    omega
  have hbuilt := (@built_iff Int _ _ .manualDownload (codes "o") (codes "s")
    (List.replicate n 34) 1 1).mpr ⟨⟨by decide, by decide, by decide, hne,
      (byteLength_quotes n).trans_le hfit⟩, rfl⟩
  refine ⟨_, hbuilt, ?_⟩
  rw [Ne, parse_envelope_iff plainCoercions hbuilt rfl (le_refl _)]
  rintro ⟨-, hlen⟩
  unfold envelopeBytes at hlen
  rw [escapedBytes_quotes] at hlen
  omega

/-- Eight mebibytes of quotes can be written and not be read. -/
theorem download_transaction_lost :
    ∃ e, cloudDownloadTransactionEnvelope .manualDownload (codes "o")
        (codes "s") (1 : Int) (List.replicate (8 * 1024 * 1024) 34) 1 = some e
      ∧ parseCloudDownloadTransactionEnvelope plainCoercions e.json.text
        (codes "o") (codes "s") 1 ≠ some e.json.sorted :=
  quotes_lost (by norm_num)
    (by norm_num [CLOUD_DOWNLOAD_TRANSACTION_MAX_PAYLOAD_BYTES])
    (by norm_num [CLOUD_DOWNLOAD_TRANSACTION_MAX_BYTES])

end RemoteDesk.Cloud
