/-
Names of the local network (common/local_name_resolver.cpp).

The functions read a datagram of some length, and each read of it here fails
past its end (`get`): a result is proved to be there for every datagram, so
nothing past the end is read. What a name at an offset says is a relation of
its own (`Spells`); a cycle of compression pointers spells nothing, and the
reader's guard, its fuel here, ends on one.

`records_spec` follows the record loop with what a record may add as a
parameter; the two protocols instantiate it. The last part follows a query's
question from the name to the bytes and back.
-/
import RemoteDesk.Lib.BigEndian

namespace RemoteDesk.Net.LocalName

open Lib

def kTypeA : Nat := 1
def kTypeAaaa : Nat := 28
def kTypeNb : Nat := 0x0020
def kClassIn : Nat := 1

-- ===================================== text

def toLower (c : UInt8) : UInt8 := if 65 ≤ c ∧ c ≤ 90 then c + 32 else c
def toUpper (c : UInt8) : UInt8 := if 97 ≤ c ∧ c ≤ 122 then c - 32 else c
def lower (value : List UInt8) : List UInt8 := value.map toLower

def isAlnum (c : UInt8) : Bool :=
  48 ≤ c ∧ c ≤ 57 ∨ 65 ≤ c ∧ c ≤ 90 ∨ 97 ≤ c ∧ c ≤ 122

def labelIsValid (label : List UInt8) : Bool :=
  if label = [] ∨ 63 < label.length ∨ label.head? = some 45
      ∨ label.getLast? = some 45 then false
  else label.all fun c => isAlnum c || c = 45

-- ==================================== reads

/-- A byte of the datagram, `none` past its end. -/
def get (data : List UInt8) (i : Nat) : Option UInt8 := data[i]?

def get16 (data : List UInt8) (i : Nat) : Option Nat :=
  (get data i).bind fun high => (get data (i + 1)).map fun low =>
    high.toNat <<< 8 ||| low.toNat

/-- A block of it. -/
def slice (data : List UInt8) (i n : Nat) : Option (List UInt8) :=
  if i + n ≤ data.length then some ((data.drop i).take n) else none

/-- A label added to a name. -/
def addLabel (name label : List UInt8) : List UInt8 :=
  (if name = [] then [] else name ++ [46]) ++ label

def pointerTo (length low : UInt8) : Nat :=
  (length &&& 0x3f).toNat <<< 8 ||| low.toNat

/-- The loop with `guard` turns left, a name so far and the offset after it
    once a pointer has set it; the name and that offset, `some none` for
    `return false`. -/
def readNameFrom (data : List UInt8) : Nat → Nat → Option Nat → List UInt8 →
    Option (Option (List UInt8 × Nat))
  | 0, _, _, _ => some none
  | guard + 1, cursor, jumped, name =>
    if data.length ≤ cursor then some none
    else (get data cursor).bind fun length =>
      if length &&& 0xc0 = 0xc0 then
        if data.length ≤ cursor + 1 then some none
        else (get data (cursor + 1)).bind fun low =>
          readNameFrom data guard (pointerTo length low)
            (some (jumped.getD (cursor + 2))) name
      else if length &&& 0xc0 ≠ 0 then some none
      else if length = 0 then some (some (name, jumped.getD (cursor + 1)))
      else if data.length < cursor + 1 + length.toNat then some none
      else (slice data (cursor + 1) length.toNat).bind fun label =>
        readNameFrom data guard (cursor + 1 + length.toNat) jumped
          (addLabel name label)

def readName (data : List UInt8) (offset : Nat) :
    Option (Option (List UInt8 × Nat)) :=
  readNameFrom data 128 offset none []

-- ================================= addresses

def usableIpv6 (address : List UInt8) : Bool :=
  if address.getD 0 0 = 0xfe ∧ address.getD 1 0 &&& 0xc0 = 0x80 then false
  else address ≠ List.replicate 16 0 ∧ address ≠ List.replicate 15 0 ++ [1]

def usableIpv4 (address : List UInt8) : Bool :=
  let value := beNat address
  let first := value >>> 24
  first ≠ 0 ∧ first ≠ 127 ∧ first < 224 ∧ value ≠ 0xffffffff

def addUnique (addresses : List String) (address : String) : List String :=
  if address ≠ "" ∧ address ∉ addresses then addresses ++ [address]
  else addresses

/-- `found` and the addresses. -/
abbrev Answers := Bool × List String

section Parse

-- `inet_ntop`
variable (ntop : List UInt8 → Option String)

/-- An address of an answer. -/
def addAddress (usable : Bool) (address : List UInt8) (acc : Answers) :
    Answers :=
  if usable then
    match ntop address with
    | some text => (true, addUnique acc.2 text)
    | none => acc
  else acc

-- =================================== records

/-- The questions are passed over. -/
def skipQuestions (data : List UInt8) : Nat → Nat → Option (Option Nat)
  | 0, cursor => some (some cursor)
  | n + 1, cursor => (readName data cursor).bind fun read =>
    match read with
    | none => some none
    | some (_, next) =>
      if data.length < next + 4 then some none
      else skipQuestions data n (next + 4)

/-- What both loops read of a record: its name and the offset after it. -/
structure Record where
  field : List UInt8
  next : Nat
  type : Nat
  length : Nat

namespace Record

def rdata (r : Record) : Nat := r.next + 10
def after (r : Record) : Nat := r.rdata + r.length

end Record

/-- `some none` where the loop breaks. -/
def recordAt (data : List UInt8) (cursor : Nat) : Option (Option Record) :=
  (readName data cursor).bind fun read =>
    match read with
    | none => some none
    | some (field, next) =>
      if data.length < next + 10 then some none
      else (get16 data next).bind fun type =>
        (get16 data (next + 8)).bind fun length =>
          if data.length < next + 10 + length then some none
          else some (some { field, next, type, length })

def records (each : Record → Answers → Option Answers) (data : List UInt8) :
    Nat → Nat → Answers → Option Answers
  | 0, _, acc => some acc
  | n + 1, cursor, acc => (recordAt data cursor).bind fun read =>
    match read with
    | none => some acc
    | some r => (each r acc).bind (records each data n r.after)

-- ======================================= DNS

def dnsRecord (data wanted : List UInt8) (r : Record) (acc : Answers) :
    Option Answers :=
  (get16 data (r.next + 2)).bind fun recordClass =>
    if recordClass &&& 0x7fff = kClassIn ∧ lower r.field = wanted then
      if r.type = kTypeA ∧ r.length = 4 then
        (slice data r.rdata 4).map fun address =>
          addAddress ntop (usableIpv4 address) address acc
      else if r.type = kTypeAaaa ∧ r.length = 16 then
        (slice data r.rdata 16).map fun address =>
          addAddress ntop (usableIpv6 address) address acc
      else some acc
    else some acc

def parseDnsAnswers (data : List UInt8) (id : Nat) (anyId : Bool)
    (name : List UInt8) (addresses : List String) : Option Answers :=
  if data.length < 12 then some (false, addresses)
  else (get16 data 0).bind fun first =>
    if anyId = false ∧ first ≠ id then some (false, addresses)
    else (get16 data 2).bind fun flags =>
      if flags &&& 0x8000 = 0 ∨ flags &&& 0x000f ≠ 0 then
        some (false, addresses)
      else (get16 data 4).bind fun questions =>
        (get16 data 6).bind fun answers =>
        (get16 data 8).bind fun authorities =>
        (get16 data 10).bind fun additional =>
        (skipQuestions data questions 12).bind fun start =>
          match start with
          | none => some (false, addresses)
          | some cursor =>
            records (dnsRecord ntop data (lower name)) data
              (answers + authorities + additional) cursor (false, addresses)

-- =================================== NetBIOS

def encodeNetbiosName (name : List UInt8) (suffix : UInt8) : List UInt8 :=
  let padded := (name.take 15).map toUpper
  let padded := padded ++ List.replicate (15 - padded.length) 32 ++ [suffix]
  padded.flatMap fun c : UInt8 => [(65 : UInt8) + (c >>> 4), 65 + (c &&& 0x0f)]

/-- The entries of six bytes that are left, from an offset of the record. -/
def netbiosEntries (data : List UInt8) (rdata : Nat) :
    Nat → Nat → Answers → Option Answers
  | 0, _, acc => some acc
  | n + 1, entry, acc => (slice data (rdata + entry + 2) 4).bind fun address =>
    netbiosEntries data rdata n (entry + 6)
      (addAddress ntop (usableIpv4 address) address acc)

def netbiosRecord (data expected : List UInt8) (r : Record) (acc : Answers) :
    Option Answers :=
  let sameName := r.field.length = 32 ∧ r.field.take 30 = expected
  if r.type = kTypeNb ∧ sameName then
    netbiosEntries ntop data r.rdata (r.length / 6) 0 acc
  else some acc

def parseNetbiosNameResponse (data : List UInt8) (id : Nat)
    (name : List UInt8) (addresses : List String) : Option Answers :=
  if data.length < 12 then some (false, addresses)
  else (get16 data 0).bind fun first =>
    if first ≠ id then some (false, addresses)
    else
      let expected := (encodeNetbiosName name 0).take 30
      (get16 data 2).bind fun flags =>
        if flags &&& 0x8000 = 0 ∨ flags &&& 0x000f ≠ 0 then
          some (false, addresses)
        else (get16 data 6).bind fun answers =>
          (get16 data 4).bind fun questions =>
          (skipQuestions data questions 12).bind fun start =>
            match start with
            | none => some (false, addresses)
            | some cursor => records (netbiosRecord ntop data expected) data
                answers cursor (false, addresses)

end Parse

-- =================================== queries

inductive LocalNameKind
  | none
  | singleLabel
  | mdnsLocal
deriving DecidableEq

/-- The name without a final dot. -/
def stripDot (name : List UInt8) : List UInt8 :=
  if name.getLast? = some 46 then name.dropLast else name

/-- The loop over the labels, from a start on. -/
def labelsValid (rest : List UInt8) : Bool :=
  let label := rest.takeWhile (· ≠ 46)
  if !labelIsValid label then false
  else if h : label.length < rest.length then
    labelsValid (rest.drop (label.length + 1))
  else true
termination_by rest.length
decreasing_by
  rw [List.length_drop]
  omega

def suffixLocal : List UInt8 := [46, 108, 111, 99, 97, 108]

def classifyLocalName (rawName : List UInt8) : LocalNameKind :=
  let name := stripDot rawName
  if name = [] ∨ 253 < name.length then .none
  else if 46 ∉ name then
    if labelIsValid name then .singleLabel else .none
  else
    let low := lower name
    if low.length ≤ suffixLocal.length
        ∨ low.drop (low.length - suffixLocal.length) ≠ suffixLocal then .none
    else if labelsValid name then .mdnsLocal
    else .none

/-- The labels of a question, from a start on. -/
def questionLabels (rest : List UInt8) : List UInt8 :=
  if _h : rest = [] then []
  else
    let label := rest.takeWhile (· ≠ 46)
    let length := min label.length 63
    (UInt8.ofNat length :: label.take length)
      ++ questionLabels (rest.drop (label.length + 1))
termination_by rest.length
decreasing_by
  have hpos := List.length_pos_of_ne_nil _h
  rw [List.length_drop]
  omega

def header (id : Nat) : List UInt8 :=
  beBytes 2 id ++ beBytes 2 0 ++ beBytes 2 1 ++ beBytes 2 0 ++ beBytes 2 0
    ++ beBytes 2 0

def buildDnsQuery (id : Nat) (name : List UInt8) (type : Nat)
    (unicastResponse : Bool) : List UInt8 :=
  header id ++ questionLabels name ++ [0] ++ beBytes 2 type
    ++ beBytes 2 (kClassIn ||| if unicastResponse then 0x8000 else 0)

-- ============================= what a name is

/-- The labels a name at an offset spells, after RFC 1035. -/
inductive Spells (data : List UInt8) : Nat → List (List UInt8) → Prop
  | root {cursor : Nat} : get data cursor = some 0 → Spells data cursor []
  | label {cursor : Nat} {length : UInt8} {label : List UInt8}
      {labels : List (List UInt8)} : get data cursor = some length →
      length &&& 0xc0 = 0 → length ≠ 0 →
      slice data (cursor + 1) length.toNat = some label →
      Spells data (cursor + 1 + length.toNat) labels →
      Spells data cursor (label :: labels)
  | pointer {cursor : Nat} {length low : UInt8} {labels : List (List UInt8)} :
      get data cursor = some length → length &&& 0xc0 = 0xc0 →
      get data (cursor + 1) = some low →
      Spells data (pointerTo length low) labels → Spells data cursor labels

/-- The offset after it in place. -/
inductive Ends (data : List UInt8) : Nat → Nat → Prop
  | root {cursor : Nat} : get data cursor = some 0 →
      Ends data cursor (cursor + 1)
  | label {cursor next : Nat} {length : UInt8} : get data cursor = some length →
      length &&& 0xc0 = 0 → length ≠ 0 →
      Ends data (cursor + 1 + length.toNat) next → Ends data cursor next
  | pointer {cursor : Nat} {length : UInt8} : get data cursor = some length →
      length &&& 0xc0 = 0xc0 → Ends data cursor (cursor + 2)

def dotted (labels : List (List UInt8)) : List UInt8 := labels.foldl addLabel []

variable {data : List UInt8}

theorem get_of_lt {i : Nat} (h : i < data.length) :
    ∃ b, get data i = some b := ⟨data[i], List.getElem?_eq_getElem h⟩

theorem get16_of_le {i : Nat} (h : i + 2 ≤ data.length) :
    ∃ n, get16 data i = some n := by
  obtain ⟨high, hhigh⟩ := get_of_lt (by omega : i < data.length)
  obtain ⟨low, hlow⟩ := get_of_lt (by omega : i + 1 < data.length)
  refine ⟨high.toNat <<< 8 ||| low.toNat, ?_⟩
  rw [get16, hhigh, hlow]
  rfl

theorem slice_of_le {i n : Nat} (h : i + n ≤ data.length) :
    ∃ block, slice data i n = some block ∧ block.length = n := by
  refine ⟨(data.drop i).take n, if_pos h, ?_⟩
  rw [List.length_take, List.length_drop]
  omega

/-- A block of a block. -/
theorem slice_slice {i n k m : Nat} {block : List UInt8}
    (h : slice data i n = some block) (hm : k + m ≤ n) :
    slice data (i + k) m = some ((block.drop k).take m) := by
  unfold slice at h ⊢
  split at h
  · cases h
    rw [if_pos (by omega), List.drop_take, List.drop_drop, List.take_take,
      Nat.min_eq_left (by omega)]
  · cases h

/-- A name spells one list of labels. -/
theorem Spells.unique {cursor : Nat} {labels labels' : List (List UInt8)}
    (h : Spells data cursor labels) (h' : Spells data cursor labels') :
    labels = labels' := by
  induction h generalizing labels' with
  | root hzero =>
    cases h' with
    | root => rfl
    | label hget _ hne =>
      cases hzero.symm.trans hget
      exact absurd rfl hne
    | pointer hget hbits =>
      cases hzero.symm.trans hget
      exact absurd hbits (by decide)
  | label hget hbits hne hlabel _ ih =>
    cases h' with
    | root hzero =>
      cases hget.symm.trans hzero
      exact absurd rfl hne
    | label hget' _ _ hlabel' hrest =>
      cases hget.symm.trans hget'
      cases hlabel.symm.trans hlabel'
      rw [ih hrest]
    | pointer hget' hbits' =>
      cases hget.symm.trans hget'
      exact absurd (hbits.symm.trans hbits') (by decide)
  | pointer hget hbits hlow _ ih =>
    cases h' with
    | root hzero =>
      cases hget.symm.trans hzero
      exact absurd hbits (by decide)
    | label hget' hbits' =>
      cases hget.symm.trans hget'
      exact absurd (hbits'.symm.trans hbits) (by decide)
    | pointer hget' _ hlow' hrest =>
      cases hget.symm.trans hget'
      cases hlow.symm.trans hlow'
      exact ih hrest

/-- Every read of the loop is in the datagram, and a name it returns is the
    one spelled. -/
theorem readNameFrom_spec (guard cursor : Nat) (jumped : Option Nat)
    (name : List UInt8) :
    ∃ out, readNameFrom data guard cursor jumped name = some out
      ∧ ∀ name' next', out = some (name', next') →
        ∃ labels next, Spells data cursor labels ∧ Ends data cursor next
          ∧ name' = labels.foldl addLabel name ∧ next' = jumped.getD next := by
  induction guard generalizing cursor jumped name with
  | zero => exact ⟨none, rfl, fun _ _ h => by cases h⟩
  | succ guard ih =>
    rw [readNameFrom]
    by_cases hcursor : data.length ≤ cursor
    · rw [if_pos hcursor]
      exact ⟨none, rfl, fun _ _ h => by cases h⟩
    obtain ⟨length, hlength⟩ := get_of_lt (Nat.lt_of_not_le hcursor)
    rw [if_neg hcursor, hlength, Option.bind_some]
    by_cases hpointer : length &&& 0xc0 = 0xc0
    · rw [if_pos hpointer]
      by_cases hlast : data.length ≤ cursor + 1
      · rw [if_pos hlast]
        exact ⟨none, rfl, fun _ _ h => by cases h⟩
      obtain ⟨low, hlow⟩ := get_of_lt (Nat.lt_of_not_le hlast)
      rw [if_neg hlast, hlow, Option.bind_some]
      obtain ⟨out, hout, hspec⟩ := ih (pointerTo length low)
        (some (jumped.getD (cursor + 2))) name
      refine ⟨out, hout, fun name' next' h => ?_⟩
      obtain ⟨labels, next, hspells, -, hname, hnext⟩ := hspec name' next' h
      exact ⟨labels, cursor + 2, .pointer hlength hpointer hlow hspells,
        .pointer hlength hpointer, hname, hnext⟩
    rw [if_neg hpointer]
    by_cases hbits : length &&& 0xc0 = 0
    swap
    · rw [if_pos hbits]
      exact ⟨none, rfl, fun _ _ h => by cases h⟩
    rw [if_neg (not_not.mpr hbits)]
    by_cases hzero : length = 0
    · rw [if_pos hzero]
      refine ⟨_, rfl, fun name' next' h => ?_⟩
      cases h
      rw [hzero] at hlength
      exact ⟨[], cursor + 1, .root hlength, .root hlength, rfl, rfl⟩
    rw [if_neg hzero]
    by_cases hlong : data.length < cursor + 1 + length.toNat
    · rw [if_pos hlong]
      exact ⟨none, rfl, fun _ _ h => by cases h⟩
    obtain ⟨label, hlabel, -⟩ := slice_of_le (Nat.le_of_not_lt hlong)
    rw [if_neg hlong, hlabel, Option.bind_some]
    obtain ⟨out, hout, hspec⟩ := ih (cursor + 1 + length.toNat) jumped
      (addLabel name label)
    refine ⟨out, hout, fun name' next' h => ?_⟩
    obtain ⟨labels, next, hspells, hends, hname, hnext⟩ := hspec name' next' h
    exact ⟨label :: labels, next,
      .label hlength hbits hzero hlabel hspells,
      .label hlength hbits hzero hends, hname, hnext⟩

theorem readName_spec (data : List UInt8) (offset : Nat) :
    ∃ out, readName data offset = some out ∧ ∀ name next,
      out = some (name, next) → ∃ labels, Spells data offset labels
        ∧ Ends data offset next ∧ name = dotted labels := by
  obtain ⟨out, hout, hspec⟩ := @readNameFrom_spec data 128 offset none []
  refine ⟨out, hout, fun name next h => ?_⟩
  obtain ⟨labels, next', hspells, hends, hname, rfl⟩ := hspec name next h
  exact ⟨labels, hspells, hends, hname⟩

-- ========================== records of a section

/-- The questions of a message, from an offset to the one after them. -/
inductive Questions (data : List UInt8) : Nat → Nat → Nat → Prop
  | nil (cursor : Nat) : Questions data 0 cursor cursor
  | cons {n cursor next last : Nat} {labels : List (List UInt8)} :
      Spells data cursor labels → Ends data cursor next →
      next + 4 ≤ data.length → Questions data n (next + 4) last →
      Questions data (n + 1) cursor last

structure ResourceRecord where
  owner : List (List UInt8)
  type : Nat
  recordClass : Nat
  rdata : List UInt8

/-- A record that is wholly there, and the offset after it. -/
structure Complete (data : List UInt8) (cursor : Nat) (rr : ResourceRecord)
    (next after : Nat) : Prop where
  spells : Spells data cursor rr.owner
  ends : Ends data cursor next
  type : get16 data next = some rr.type
  recordClass : get16 data (next + 2) = some rr.recordClass
  length : get16 data (next + 8) = some rr.rdata.length
  rdata : slice data (next + 10) rr.rdata.length = some rr.rdata
  after : after = next + 10 + rr.rdata.length

/-- One of the first `n` records from an offset on. -/
inductive InSection (data : List UInt8) : Nat → Nat → ResourceRecord → Prop
  | here {n cursor next after : Nat} {rr : ResourceRecord} :
      Complete data cursor rr next after → InSection data (n + 1) cursor rr
  | later {n cursor next after : Nat} {rr other : ResourceRecord} :
      Complete data cursor other next after → InSection data n after rr →
      InSection data (n + 1) cursor rr

theorem skipQuestions_spec (data : List UInt8) (n cursor : Nat) :
    ∃ out, skipQuestions data n cursor = some out
      ∧ ∀ last, out = some last → Questions data n cursor last := by
  induction n generalizing cursor with
  | zero =>
    refine ⟨some cursor, rfl, fun last h => ?_⟩
    cases h
    exact .nil cursor
  | succ n ih =>
    obtain ⟨out, hout, hspec⟩ := readName_spec data cursor
    rw [skipQuestions, hout, Option.bind_some]
    cases out with
    | none => exact ⟨none, rfl, fun _ h => by cases h⟩
    | some read =>
      obtain ⟨name, next⟩ := read
      obtain ⟨labels, hspells, hends, -⟩ := hspec name next rfl
      dsimp only
      by_cases hshort : data.length < next + 4
      · rw [if_pos hshort]
        exact ⟨none, rfl, fun _ h => by cases h⟩
      · rw [if_neg hshort]
        obtain ⟨out, hout, hrest⟩ := ih (next + 4)
        exact ⟨out, hout, fun last h =>
          .cons hspells hends (Nat.le_of_not_lt hshort) (hrest last h)⟩

/-- What a record read has to do with the one that is there. -/
structure Reads (data : List UInt8) (r : Record) (rr : ResourceRecord) :
    Prop where
  field : r.field = dotted rr.owner
  type : r.type = rr.type
  recordClass : get16 data (r.next + 2) = some rr.recordClass
  length : r.length = rr.rdata.length
  rdata : slice data r.rdata rr.rdata.length = some rr.rdata

theorem recordAt_spec (data : List UInt8) (cursor : Nat) :
    ∃ out, recordAt data cursor = some out ∧ ∀ r, out = some r →
      ∃ rr, Reads data r rr ∧ Complete data cursor rr r.next r.after := by
  obtain ⟨out, hout, hspec⟩ := readName_spec data cursor
  rw [recordAt, hout, Option.bind_some]
  cases out with
  | none => exact ⟨none, rfl, fun _ h => by cases h⟩
  | some read =>
    obtain ⟨field, next⟩ := read
    obtain ⟨owner, hspells, hends, hfield⟩ := hspec field next rfl
    dsimp only
    by_cases hshort : data.length < next + 10
    · rw [if_pos hshort]
      exact ⟨none, rfl, fun _ h => by cases h⟩
    obtain ⟨type, htype⟩ := @get16_of_le data next (by omega)
    obtain ⟨recordClass, hclass⟩ := @get16_of_le data (next + 2) (by omega)
    obtain ⟨length, hlength⟩ := @get16_of_le data (next + 8) (by omega)
    rw [if_neg hshort, htype, Option.bind_some, hlength, Option.bind_some]
    by_cases hlong : data.length < next + 10 + length
    · rw [if_pos hlong]
      exact ⟨none, rfl, fun _ h => by cases h⟩
    obtain ⟨rdata, hrdata, rfl⟩ := slice_of_le (Nat.le_of_not_lt hlong)
    rw [if_neg hlong]
    refine ⟨_, rfl, fun r h => ?_⟩
    cases h
    exact ⟨⟨owner, type, recordClass, rdata⟩,
      ⟨hfield, rfl, hclass, rfl, hrdata⟩,
      ⟨hspells, hends, htype, hclass, hlength, hrdata, rfl⟩⟩

/-- The record loop, where a record adds only what it may. -/
theorem records_spec {each : Record → Answers → Option Answers}
    {Adds : ResourceRecord → String → Prop}
    (heach : ∀ r rr acc, Reads data r rr → ∃ acc', each r acc = some acc'
      ∧ ∀ a ∈ acc'.2, a ∈ acc.2 ∨ Adds rr a) (n cursor : Nat) (acc : Answers) :
    ∃ acc', records each data n cursor acc = some acc' ∧ ∀ a ∈ acc'.2,
      a ∈ acc.2 ∨ ∃ rr, InSection data n cursor rr ∧ Adds rr a := by
  induction n generalizing cursor acc with
  | zero => exact ⟨acc, rfl, fun a ha => .inl ha⟩
  | succ n ih =>
    obtain ⟨out, hout, hspec⟩ := recordAt_spec data cursor
    rw [records, hout, Option.bind_some]
    cases out with
    | none => exact ⟨acc, rfl, fun a ha => .inl ha⟩
    | some r =>
      obtain ⟨rr, hreads, hcomplete⟩ := hspec r rfl
      obtain ⟨acc₁, hacc₁, hfirst⟩ := heach r rr acc hreads
      obtain ⟨acc₂, hacc₂, hrest⟩ := ih r.after acc₁
      refine ⟨acc₂, ?_, fun a ha => ?_⟩
      · dsimp only
        rw [hacc₁]
        exact hacc₂
      · rcases hrest a ha with ha | ⟨other, hother, hadds⟩
        · rcases hfirst a ha with ha | hadds
          · exact .inl ha
          · exact .inr ⟨rr, .here hcomplete, hadds⟩
        · exact .inr ⟨other, .later hcomplete hother, hadds⟩

-- =================================== answers

section Answers

variable {ntop : List UInt8 → Option String}

/-- A response without an error, of an id where one is asked for, with records
    from `start` on. -/
structure Response (data : List UInt8) (id : Option Nat) (start : Nat) :
    Prop where
  id : ∀ i ∈ id, get16 data 0 = some i
  flags : ∃ flags, get16 data 2 = some flags ∧ flags &&& 0x8000 ≠ 0
    ∧ flags &&& 0x000f = 0
  questions : ∃ n, get16 data 4 = some n ∧ Questions data n 12 start

/-- The text of a block of 4 or 16 bytes that can be a remote host. -/
def AddressText (ntop : List UInt8 → Option String) (address : List UInt8)
    (text : String) : Prop :=
  ntop address = some text ∧ (address.length = 4 ∧ usableIpv4 address = true
    ∨ address.length = 16 ∧ usableIpv6 address = true)

/-- The record answers a DNS query for `name`. The first bit of the class is
    the mark of mDNS that caches are to be flushed. -/
structure DnsAnswer (ntop : List UInt8 → Option String) (name : List UInt8)
    (rr : ResourceRecord) (text : String) : Prop where
  recordClass : rr.recordClass &&& 0x7fff = kClassIn
  owner : lower (dotted rr.owner) = lower name
  type : rr.type = kTypeA ∧ rr.rdata.length = 4
    ∨ rr.type = kTypeAaaa ∧ rr.rdata.length = 16
  address : AddressText ntop rr.rdata text

/-- The record answers a NetBIOS query for `name`, whatever its suffix; the
    address stands in an entry of six bytes after two of flags. -/
structure NetbiosAnswer (ntop : List UInt8 → Option String) (name : List UInt8)
    (rr : ResourceRecord) (text : String) : Prop where
  type : rr.type = kTypeNb
  owner : (dotted rr.owner).length = 32
    ∧ (dotted rr.owner).take 30 = (encodeNetbiosName name 0).take 30
  address : ∃ k, 6 * k + 6 ≤ rr.rdata.length
    ∧ AddressText ntop ((rr.rdata.drop (6 * k + 2)).take 4) text

theorem mem_addUnique {addresses : List String} {text a : String}
    (h : a ∈ addUnique addresses text) : a ∈ addresses ∨ a = text := by
  unfold addUnique at h
  split at h
  · rw [List.mem_append, List.mem_singleton] at h
    exact h
  · exact .inl h

theorem mem_addAddress {usable : Bool} {address : List UInt8} {acc : Answers}
    {a : String} (h : a ∈ (addAddress ntop usable address acc).2) :
    a ∈ acc.2 ∨ usable = true ∧ ntop address = some a := by
  unfold addAddress at h
  split at h
  · rename_i husable
    cases htext : ntop address with
    | none =>
      rw [htext] at h
      exact .inl h
    | some text =>
      rw [htext] at h
      rcases mem_addUnique h with ha | rfl
      · exact .inl ha
      · exact .inr ⟨husable, rfl⟩
  · exact .inl h

theorem dnsRecord_spec {name : List UInt8} (r : Record) (rr : ResourceRecord)
    (acc : Answers) (h : Reads data r rr) :
    ∃ acc', dnsRecord ntop data (lower name) r acc = some acc' ∧ ∀ a ∈ acc'.2,
      a ∈ acc.2 ∨ DnsAnswer ntop name rr a := by
  rw [dnsRecord, h.recordClass, Option.bind_some, h.field, h.type, h.length]
  by_cases hname : rr.recordClass &&& 0x7fff = kClassIn
      ∧ lower (dotted rr.owner) = lower name
  swap
  · rw [if_neg hname]
    exact ⟨acc, rfl, fun a ha => .inl ha⟩
  rw [if_pos hname]
  by_cases hfour : rr.type = kTypeA ∧ rr.rdata.length = 4
  · have hrdata := h.rdata
    rw [hfour.2] at hrdata
    rw [if_pos hfour, hrdata]
    refine ⟨_, rfl, fun a ha => ?_⟩
    rcases mem_addAddress ha with ha | ⟨husable, htext⟩
    · exact .inl ha
    · exact .inr ⟨hname.1, hname.2, .inl hfour,
        htext, .inl ⟨hfour.2, husable⟩⟩
  rw [if_neg hfour]
  by_cases hsixteen : rr.type = kTypeAaaa ∧ rr.rdata.length = 16
  · have hrdata := h.rdata
    rw [hsixteen.2] at hrdata
    rw [if_pos hsixteen, hrdata]
    refine ⟨_, rfl, fun a ha => ?_⟩
    rcases mem_addAddress ha with ha | ⟨husable, htext⟩
    · exact .inl ha
    · exact .inr ⟨hname.1, hname.2, .inr hsixteen,
        htext, .inr ⟨hsixteen.2, husable⟩⟩
  · rw [if_neg hsixteen]
    exact ⟨acc, rfl, fun a ha => .inl ha⟩

/-- The entries from the `k`-th on. -/
theorem netbiosEntries_spec {rdata : Nat} {block : List UInt8}
    (hblock : slice data rdata block.length = some block) (n k : Nat)
    (acc : Answers) (h : 6 * k + 6 * n ≤ block.length) :
    ∃ acc', netbiosEntries ntop data rdata n (6 * k) acc = some acc'
      ∧ ∀ a ∈ acc'.2, a ∈ acc.2 ∨ ∃ k, 6 * k + 6 ≤ block.length
        ∧ AddressText ntop ((block.drop (6 * k + 2)).take 4) a := by
  induction n generalizing k acc with
  | zero => exact ⟨acc, rfl, fun a ha => .inl ha⟩
  | succ n ih =>
    have hentry : slice data (rdata + 6 * k + 2) 4
        = some ((block.drop (6 * k + 2)).take 4) := by
      rw [Nat.add_assoc]
      exact slice_slice hblock (by omega)
    have hlen : ((block.drop (6 * k + 2)).take 4).length = 4 := by
      rw [List.length_take, List.length_drop]
      omega
    rw [netbiosEntries, hentry, Option.bind_some]
    obtain ⟨acc', hacc', hspec⟩ := ih (k + 1) _ (by omega)
    refine ⟨acc', hacc', fun a ha => ?_⟩
    rcases hspec a ha with ha | ha
    · rcases mem_addAddress ha with ha | ⟨husable, htext⟩
      · exact .inl ha
      · exact .inr ⟨k, by omega, htext, .inl ⟨hlen, husable⟩⟩
    · exact .inr ha

theorem netbiosRecord_spec {name : List UInt8} (r : Record)
    (rr : ResourceRecord) (acc : Answers) (h : Reads data r rr) :
    ∃ acc', netbiosRecord ntop data ((encodeNetbiosName name 0).take 30) r acc
        = some acc'
      ∧ ∀ a ∈ acc'.2, a ∈ acc.2 ∨ NetbiosAnswer ntop name rr a := by
  rw [netbiosRecord, h.field, h.type, h.length]
  by_cases hname : rr.type = kTypeNb ∧ (dotted rr.owner).length = 32
      ∧ (dotted rr.owner).take 30 = (encodeNetbiosName name 0).take 30
  · rw [if_pos hname]
    obtain ⟨acc', hacc', hspec⟩ := @netbiosEntries_spec data ntop _ _ h.rdata
      (rr.rdata.length / 6) 0 acc (by omega)
    refine ⟨acc', hacc', fun a ha => ?_⟩
    exact (hspec a ha).imp_right fun hentry => ⟨hname.1, hname.2, hentry⟩
  · rw [if_neg hname]
    exact ⟨acc, rfl, fun a ha => .inl ha⟩

theorem parseDnsAnswers_spec (data : List UInt8) (id : Nat) (anyId : Bool)
    (name : List UInt8) (addresses : List String) :
    ∃ acc, parseDnsAnswers ntop data id anyId name addresses = some acc
      ∧ ∀ a ∈ acc.2, a ∈ addresses ∨ ∃ start n₁ n₂ n₃ rr,
        Response data (if anyId then none else some id) start
        ∧ get16 data 6 = some n₁ ∧ get16 data 8 = some n₂
        ∧ get16 data 10 = some n₃ ∧ InSection data (n₁ + n₂ + n₃) start rr
        ∧ DnsAnswer ntop name rr a := by
  rw [parseDnsAnswers]
  by_cases hshort : data.length < 12
  · rw [if_pos hshort]
    exact ⟨_, rfl, fun a ha => .inl ha⟩
  obtain ⟨first, hfirst⟩ := @get16_of_le data 0 (by omega)
  obtain ⟨flags, hflags⟩ := @get16_of_le data 2 (by omega)
  obtain ⟨questions, hquestions⟩ := @get16_of_le data 4 (by omega)
  obtain ⟨n₁, h₁⟩ := @get16_of_le data 6 (by omega)
  obtain ⟨n₂, h₂⟩ := @get16_of_le data 8 (by omega)
  obtain ⟨n₃, h₃⟩ := @get16_of_le data 10 (by omega)
  rw [if_neg hshort, hfirst, Option.bind_some]
  by_cases hid : anyId = false ∧ first ≠ id
  · rw [if_pos hid]
    exact ⟨_, rfl, fun a ha => .inl ha⟩
  rw [if_neg hid, hflags, Option.bind_some]
  by_cases herror : flags &&& 0x8000 = 0 ∨ flags &&& 0x000f ≠ 0
  · rw [if_pos herror]
    exact ⟨_, rfl, fun a ha => .inl ha⟩
  rw [if_neg herror, hquestions, Option.bind_some, h₁, Option.bind_some, h₂,
    Option.bind_some, h₃, Option.bind_some]
  obtain ⟨out, hout, hstart⟩ := skipQuestions_spec data questions 12
  rw [hout, Option.bind_some]
  cases out with
  | none => exact ⟨_, rfl, fun a ha => .inl ha⟩
  | some start =>
    obtain ⟨acc, hacc, hspec⟩ := records_spec (@dnsRecord_spec data ntop name)
      (n₁ + n₂ + n₃) start (false, addresses)
    refine ⟨acc, hacc, fun a ha => ?_⟩
    refine (hspec a ha).imp_right fun ⟨rr, hsection, hanswer⟩ =>
      ⟨start, n₁, n₂, n₃, rr, ⟨?_, ?_, ?_⟩, rfl, rfl, rfl, hsection, hanswer⟩
    · intro i hi
      cases hany : anyId with
      | true =>
        rw [hany] at hi
        cases hi
      | false =>
        rw [hany] at hi
        cases hi
        rw [hfirst, not_not.mp fun h => hid ⟨hany, h⟩]
    · exact ⟨flags, hflags, fun h => herror (.inl h),
        not_not.mp fun h => herror (.inr h)⟩
    · exact ⟨questions, hquestions, hstart start rfl⟩

theorem parseNetbiosNameResponse_spec (data : List UInt8) (id : Nat)
    (name : List UInt8) (addresses : List String) :
    ∃ acc, parseNetbiosNameResponse ntop data id name addresses = some acc
      ∧ ∀ a ∈ acc.2, a ∈ addresses ∨ ∃ start n rr,
        Response data (some id) start ∧ get16 data 6 = some n
        ∧ InSection data n start rr ∧ NetbiosAnswer ntop name rr a := by
  rw [parseNetbiosNameResponse]
  by_cases hshort : data.length < 12
  · rw [if_pos hshort]
    exact ⟨_, rfl, fun a ha => .inl ha⟩
  obtain ⟨first, hfirst⟩ := @get16_of_le data 0 (by omega)
  obtain ⟨flags, hflags⟩ := @get16_of_le data 2 (by omega)
  obtain ⟨questions, hquestions⟩ := @get16_of_le data 4 (by omega)
  obtain ⟨n, hn⟩ := @get16_of_le data 6 (by omega)
  rw [if_neg hshort, hfirst, Option.bind_some]
  by_cases hid : first = id
  swap
  · rw [if_pos hid]
    exact ⟨_, rfl, fun a ha => .inl ha⟩
  rw [if_neg (not_not.mpr hid), hflags]
  dsimp only [Option.bind_some]
  by_cases herror : flags &&& 0x8000 = 0 ∨ flags &&& 0x000f ≠ 0
  · rw [if_pos herror]
    exact ⟨_, rfl, fun a ha => .inl ha⟩
  rw [if_neg herror, hn, Option.bind_some, hquestions, Option.bind_some]
  obtain ⟨out, hout, hstart⟩ := skipQuestions_spec data questions 12
  rw [hout, Option.bind_some]
  cases out with
  | none => exact ⟨_, rfl, fun a ha => .inl ha⟩
  | some start =>
    obtain ⟨acc, hacc, hspec⟩ := records_spec
      (@netbiosRecord_spec data ntop name) n start (false, addresses)
    refine ⟨acc, hacc, fun a ha => ?_⟩
    refine (hspec a ha).imp_right fun ⟨rr, hsection, hanswer⟩ =>
      ⟨start, n, rr, ⟨?_, ?_, ?_⟩, rfl, hsection, hanswer⟩
    · intro i hi
      cases hi
      rw [hfirst, hid]
    · exact ⟨flags, hflags, fun h => herror (.inl h),
        not_not.mp fun h => herror (.inr h)⟩
    · exact ⟨questions, hquestions, hstart start rfl⟩

end Answers

-- =============================== the question

/-- A name and its labels. -/
inductive Dotted : List UInt8 → List (List UInt8) → Prop
  | last {label : List UInt8} : labelIsValid label = true →
      Dotted label [label]
  | cons {label rest : List UInt8} {labels : List (List UInt8)} :
      labelIsValid label = true → Dotted rest labels →
      Dotted (label ++ 46 :: rest) (label :: labels)

def encoded (label : List UInt8) : List UInt8 :=
  UInt8.ofNat label.length :: label

section Question

variable {label rest name : List UInt8} {labels : List (List UInt8)}

theorem label_bounds (h : labelIsValid label = true) :
    0 < label.length ∧ label.length ≤ 63 := by
  unfold labelIsValid at h
  split at h
  · cases h
  rename_i hok
  simp only [not_or] at hok
  exact ⟨List.length_pos_of_ne_nil hok.1, by omega⟩

theorem no_dot_of_label (h : labelIsValid label = true) :
    ∀ c ∈ label, decide (c ≠ 46) = true := by
  unfold labelIsValid at h
  split at h
  · cases h
  intro c hc
  have hc := List.all_eq_true.mp h c hc
  apply decide_eq_true
  rintro rfl
  exact absurd hc (by decide)

theorem takeWhile_label (h : labelIsValid label = true) :
    label.takeWhile (· ≠ 46) = label :=
  List.takeWhile_eq_self_iff.mpr (no_dot_of_label h)

theorem takeWhile_label_dot (h : labelIsValid label = true)
    (rest : List UInt8) :
    (label ++ 46 :: rest).takeWhile (· ≠ 46) = label := by
  rw [List.takeWhile_append_of_pos (no_dot_of_label h),
    List.takeWhile_cons_of_neg (by decide), List.append_nil]

theorem dotted_of_labelsValid (rest : List UInt8) (h : labelsValid rest = true) :
    ∃ labels, Dotted rest labels := by
  rw [labelsValid] at h
  split at h
  · cases h
  rename_i hvalid
  rw [Bool.not_eq_true, Bool.not_eq_false'] at hvalid
  have hsplit := @List.takeWhile_append_dropWhile _ (fun c => decide (c ≠ 46)) rest
  split at h
  · rename_i hlt
    obtain ⟨labels, hrest⟩ := dotted_of_labelsValid _ h
    cases htail : rest.dropWhile fun c => decide (c ≠ 46) with
    | nil =>
      rw [htail, List.append_nil] at hsplit
      rw [hsplit] at hlt
      exact absurd hlt (lt_irrefl _)
    | cons c tail =>
      have hdot : c = 46 := by
        have hc := List.head_dropWhile_not (fun c => decide (c ≠ 46))
          (htail ▸ List.cons_ne_nil c tail)
        simp only [htail, List.head_cons] at hc
        simpa using hc
      rw [htail, hdot] at hsplit
      have hdrop : rest.drop
          ((rest.takeWhile fun c => decide (c ≠ 46)).length + 1) = tail := by
        conv_lhs => rw [← hsplit, takeWhile_label_dot hvalid]
        rw [← List.drop_drop, List.drop_left]
        rfl
      rw [hdrop] at hrest
      have hdotted := Dotted.cons hvalid hrest
      rw [hsplit] at hdotted
      exact ⟨_, hdotted⟩
  · rename_i hall
    have hlen := congrArg List.length hsplit
    rw [List.length_append] at hlen
    have hnil := List.eq_nil_of_length_eq_zero
      (by omega : (rest.dropWhile fun c => decide (c ≠ 46)).length = 0)
    rw [hnil, List.append_nil] at hsplit
    rw [hsplit] at hvalid
    exact ⟨_, .last hvalid⟩
termination_by rest.length
decreasing_by
  rw [List.length_drop]
  omega

theorem questionLabels_last (h : labelIsValid label = true) :
    questionLabels label = encoded label := by
  have hbounds := label_bounds h
  rw [questionLabels, dif_neg (List.ne_nil_of_length_pos hbounds.1)]
  dsimp only
  rw [takeWhile_label h, Nat.min_eq_left hbounds.2, List.take_length,
    List.drop_of_length_le (by omega), questionLabels, dif_pos rfl,
    List.append_nil]
  rfl

theorem questionLabels_dot (h : labelIsValid label = true) (rest : List UInt8) :
    questionLabels (label ++ 46 :: rest)
      = encoded label ++ questionLabels rest := by
  have hbounds := label_bounds h
  rw [questionLabels, dif_neg (by simp)]
  dsimp only
  rw [takeWhile_label_dot h, Nat.min_eq_left hbounds.2, List.take_length,
    ← List.drop_drop, List.drop_left]
  rfl

/-- The question of a name and of the name with a final dot. -/
theorem questionLabels_dotted (h : Dotted name labels) :
    questionLabels name = labels.flatMap encoded
      ∧ questionLabels (name ++ [46]) = labels.flatMap encoded := by
  induction h with
  | last hvalid =>
    have hnil : questionLabels [] = [] := by rw [questionLabels, dif_pos rfl]
    rw [questionLabels_last hvalid, questionLabels_dot hvalid, hnil]
    exact ⟨by simp, by simp⟩
  | cons hvalid _ ih =>
    rw [List.append_assoc, List.cons_append, questionLabels_dot hvalid,
      questionLabels_dot hvalid, ih.1, ih.2, List.flatMap_cons]
    exact ⟨rfl, rfl⟩

/-- Its length, and room for its labels within the guard. -/
theorem length_dotted (h : Dotted name labels) :
    (labels.flatMap encoded).length = name.length + 1
      ∧ 2 * labels.length ≤ name.length + 1 := by
  induction h with
  | last hvalid =>
    have hbounds := label_bounds hvalid
    refine ⟨by simp [encoded], ?_⟩
    rw [List.length_singleton]
    omega
  | cons hvalid _ ih =>
    have hbounds := label_bounds hvalid
    simp only [List.flatMap_cons, encoded, List.length_append,
      List.length_cons] at ih ⊢
    omega

theorem foldl_addLabel (h : Dotted name labels) (before : List UInt8) :
    labels.foldl addLabel before = addLabel before name := by
  induction h generalizing before with
  | last => rfl
  | @cons label rest labels hvalid _ ih =>
    have hne : addLabel before label ≠ [] := by
      have hbounds := label_bounds hvalid
      apply List.ne_nil_of_length_pos
      rw [addLabel, List.length_append]
      omega
    rw [List.foldl_cons, ih, addLabel, if_neg hne, addLabel, addLabel,
      List.append_assoc, List.append_assoc, List.singleton_append]

theorem label_header (h : label.length ≤ 63) :
    UInt8.ofNat label.length &&& 0xc0 = 0
      ∧ (UInt8.ofNat label.length).toNat = label.length := by
  have hall : ∀ n : Fin 64, UInt8.ofNat n &&& 0xc0 = 0
      ∧ (UInt8.ofNat n).toNat = n := by decide +kernel
  exact hall ⟨label.length, by omega⟩

/-- The loop over the labels of a question. -/
theorem readNameFrom_labels (before after : List UInt8) (guard : Nat)
    (name : List UInt8) (hvalid : ∀ label ∈ labels, labelIsValid label = true)
    (hguard : labels.length < guard) :
    readNameFrom (before ++ labels.flatMap encoded ++ 0 :: after) guard
        before.length none name
      = some (some (labels.foldl addLabel name,
          before.length + (labels.flatMap encoded).length + 1)) := by
  induction labels generalizing before guard name with
  | nil =>
    obtain ⟨guard, rfl⟩ : ∃ g, guard = g + 1 :=
      ⟨guard - 1, by rw [List.length_nil] at hguard; omega⟩
    rw [List.flatMap_nil, List.append_nil, readNameFrom, if_neg (by simp), get,
      List.getElem?_append_right le_rfl, Nat.sub_self]
    rfl
  | cons label labels ih =>
    obtain ⟨guard, rfl⟩ : ∃ g, guard = g + 1 :=
      ⟨guard - 1, by rw [List.length_cons] at hguard; omega⟩
    obtain ⟨hlabel, hlabels⟩ := List.forall_mem_cons.mp hvalid
    have hbounds := label_bounds hlabel
    obtain ⟨hbits, hnat⟩ := label_header hbounds.2
    have hdata : before ++ (label :: labels).flatMap encoded ++ 0 :: after
        = (before ++ encoded label) ++ labels.flatMap encoded ++ 0 :: after := by
      rw [List.flatMap_cons, List.append_assoc before (encoded label)]
    have hnext : (before ++ encoded label).length
        = before.length + 1 + label.length := by
      rw [encoded, List.length_append, List.length_cons]
      omega
    have hrest := ih (before ++ encoded label) guard (addLabel name label)
      hlabels (by rw [List.length_cons] at hguard; omega)
    rw [hdata]
    generalize hd : (before ++ encoded label) ++ labels.flatMap encoded
      ++ 0 :: after = data at hrest ⊢
    have hget : get data before.length = some (UInt8.ofNat label.length) := by
      rw [← hd, get, List.append_assoc, List.append_assoc,
        List.getElem?_append_right le_rfl, Nat.sub_self]
      rfl
    have hlen : before.length + 1 + label.length < data.length := by
      rw [← hd, List.length_append, List.length_append, hnext]
      simp
      omega
    have hslice : slice data (before.length + 1) label.length = some label := by
      rw [slice, if_pos (by omega), ← hd, encoded, List.append_assoc,
        List.append_assoc, ← List.drop_drop, List.drop_left]
      simp
    have hne : UInt8.ofNat label.length ≠ 0 := by
      intro h
      rw [h] at hnat
      have hzero : (0 : UInt8).toNat = 0 := rfl
      omega
    have hafter : (before ++ encoded label).length
          + (labels.flatMap encoded).length + 1
        = before.length + ((label :: labels).flatMap encoded).length + 1 := by
      rw [List.flatMap_cons, List.length_append, List.length_append]
      omega
    rw [hafter] at hrest
    rw [readNameFrom, if_neg (by omega), hget, Option.bind_some, hbits,
      if_neg (by decide), if_neg (by simp), if_neg hne, hnat,
      if_neg (by omega), hslice, Option.bind_some, ← hnext]
    exact hrest

theorem Dotted.valid (h : Dotted name labels) :
    ∀ label ∈ labels, labelIsValid label = true := by
  induction h with
  | last hvalid => exact List.forall_mem_singleton.mpr hvalid
  | cons hvalid _ ih => exact List.forall_mem_cons.mpr ⟨hvalid, ih⟩

/-- A name that is accepted is one of labels, but for a final dot. -/
theorem dotted_of_classify (h : classifyLocalName name ≠ .none) :
    (stripDot name).length ≤ 253 ∧ ∃ labels, Dotted (stripDot name) labels := by
  unfold classifyLocalName at h
  dsimp only at h
  split at h
  · exact absurd rfl h
  rename_i hlen
  refine ⟨by omega, ?_⟩
  split at h
  · split at h
    · exact ⟨_, .last ‹_›⟩
    · exact absurd rfl h
  · split at h
    · exact absurd rfl h
    · split at h
      · exact dotted_of_labelsValid _ ‹_›
      · exact absurd rfl h

theorem questionLabels_stripDot (h : Dotted (stripDot name) labels) :
    questionLabels name = labels.flatMap encoded := by
  unfold stripDot at h
  split at h
  · rename_i hlast
    obtain ⟨front, rfl⟩ := List.getLast?_eq_some_iff.mp hlast
    rw [List.dropLast_concat] at h
    exact (questionLabels_dotted h).2
  · exact (questionLabels_dotted h).1

/-- The question of an accepted name is read back. -/
theorem readName_question (id type : Nat) (unicastResponse : Bool)
    (h : classifyLocalName name ≠ .none) :
    ∃ next, readName (buildDnsQuery id name type unicastResponse) 12
        = some (some (stripDot name, next))
      ∧ (buildDnsQuery id name type unicastResponse).drop next = beBytes 2 type
        ++ beBytes 2 (kClassIn ||| if unicastResponse then 0x8000 else 0) := by
  obtain ⟨hlen, labels, hdotted⟩ := dotted_of_classify h
  have hguard := (length_dotted hdotted).2
  have hheader : (header id).length = 12 := by
    simp only [header, List.length_append, length_beBytes]
  rw [buildDnsQuery, questionLabels_stripDot hdotted, List.append_assoc _ [0],
    List.append_assoc _ ([0] ++ _), List.append_assoc [0],
    List.singleton_append]
  generalize beBytes 2 type ++ beBytes 2 (kClassIn
    ||| if unicastResponse then 0x8000 else 0) = after
  have hread := readNameFrom_labels (header id) after 128 [] hdotted.valid
    (by omega)
  rw [hheader, foldl_addLabel hdotted] at hread
  refine ⟨_, hread, ?_⟩
  rw [← List.drop_drop, ← hheader, ← List.length_append, List.drop_left]
  rfl

end Question

-- ================================ what is read

/-- What is said of the readers of local answers, for every `inet_ntop`. -/
structure LocalNames (ntop : List UInt8 → Option String) : Prop where
  /-- A name is read within the datagram, and as it is spelled. -/
  name : ∀ (data : List UInt8) (offset : Nat),
    ∃ out, readName data offset = some out ∧ ∀ name next,
      out = some (name, next) → ∃ labels, Spells data offset labels
        ∧ Ends data offset next ∧ name = dotted labels
  /-- So are the answers, and each address is one of a matching record. -/
  dns : ∀ (data : List UInt8) (id : Nat) (anyId : Bool) (name : List UInt8)
    (addresses : List String),
    ∃ acc, parseDnsAnswers ntop data id anyId name addresses = some acc
      ∧ ∀ a ∈ acc.2, a ∈ addresses ∨ ∃ start n₁ n₂ n₃ rr,
        Response data (if anyId then none else some id) start
        ∧ get16 data 6 = some n₁ ∧ get16 data 8 = some n₂
        ∧ get16 data 10 = some n₃ ∧ InSection data (n₁ + n₂ + n₃) start rr
        ∧ DnsAnswer ntop name rr a
  netbios : ∀ (data : List UInt8) (id : Nat) (name : List UInt8)
    (addresses : List String),
    ∃ acc, parseNetbiosNameResponse ntop data id name addresses = some acc
      ∧ ∀ a ∈ acc.2, a ∈ addresses ∨ ∃ start n rr,
        Response data (some id) start ∧ get16 data 6 = some n
        ∧ InSection data n start rr ∧ NetbiosAnswer ntop name rr a
  /-- The question of an accepted name gives the name without a final dot, and
      the offset of the two fields after it. -/
  question : ∀ (name : List UInt8) (id type : Nat) (unicastResponse : Bool),
    classifyLocalName name ≠ .none →
    ∃ next, readName (buildDnsQuery id name type unicastResponse) 12
        = some (some (stripDot name, next))
      ∧ (buildDnsQuery id name type unicastResponse).drop next = beBytes 2 type
        ++ beBytes 2 (kClassIn ||| if unicastResponse then 0x8000 else 0)

theorem local_names_read (ntop : List UInt8 → Option String) :
    LocalNames ntop where
  name := readName_spec
  dns := parseDnsAnswers_spec
  netbios := parseNetbiosNameResponse_spec
  question := fun _ id type unicastResponse h =>
    readName_question id type unicastResponse h

/-- `a.` is read back as `a`. -/
theorem final_dot_dropped :
    ¬ ∀ name, classifyLocalName name ≠ .none →
      ∃ next, readName (buildDnsQuery 0 name kTypeA false) 12
        = some (some (name, next)) := by
  intro h
  have haccepted : classifyLocalName [97, 46] ≠ .none := by decide
  obtain ⟨next, hread⟩ := h [97, 46] haccepted
  obtain ⟨next', hread', -⟩ := readName_question 0 kTypeA false haccepted
  rw [hread'] at hread
  exact absurd hread (by simp [stripDot])

end RemoteDesk.Net.LocalName
