/-
The list of files a peer offers on the RDP clipboard
(rdp_remote_file_offer.cpp).

# What is modelled

`safeRelativeName` and `RdpRemoteFileOffer::parse`: 592-byte
descriptors, one file or directory each, read in order; the checks on
one descriptor, against the ones before it, and on the finished list.
`uint64_t` sums wrap at `2 ^ 64`. The map `prefixSpellings` goes from a
folded prefix to the prefix; it is the list of its values here, looked
up through `folded`. Only the answer of the last loop over `paths`
counts, so its order is that of the list.

# Results

What a descriptor says does not depend on the others
(`descriptorName`, `descriptorEntry`). The loop goes through exactly
when the entries fit together (`Fits`, `addDescriptors_ok`,
`addDescriptors_fits`), and fitting together does not depend on the
order (`Fits.perm`): `parse_ready_iff` says when an offer is ready, and
safety and the independence of the order are read off it.
-/
import RemoteDesk.Clipboard.TextCodec
import RemoteDesk.Lib.Paths

namespace RemoteDesk.Clipboard

open Lib

-- =================================== names

/-- `folded`: ASCII upper case made lower. -/
def folded (value : List UInt8) : List UInt8 :=
  value.map fun c =>
    if 65 ≤ c.toNat ∧ c.toNat ≤ 90 then UInt8.ofNat (c.toNat - 65 + 97)
    else c

/-- `reserved`: a device name before the first dot. -/
def reserved (name : List UInt8) : Bool :=
  let base := folded (name.takeWhile (· != 46))
  base == ascii "con" || base == ascii "prn" || base == ascii "aux"
    || base == ascii "nul"
    || base.length == 4
      && (base.take 3 == ascii "com" || base.take 3 == ascii "lpt")
      && 49 ≤ (byteAt base 3).toNat && (byteAt base 3).toNat ≤ 57

/-- The bytes no component may hold. -/
def forbidden (c : UInt8) : Bool :=
  c.toNat < 0x20 || c == 0x7F || c ∈ ascii ":*?\"<>|"

/-- What the loop refuses of one component. -/
def badPart (part : List UInt8) : Bool :=
  part == [] || 255 < part.length || part == ascii "." || part == ascii ".."
    || part.getLast? == some 46 || part.getLast? == some 32 || reserved part
    || part.any forbidden

/-- The loop over the components; each turn shortens `rest`. -/
def partsLoop : Nat → Nat → List UInt8 → Bool
  | 0, _, _ => true
  | fuel + 1, depth, rest =>
    if rest = [] then true
    else
      let (part, more) := cut 47 rest
      if 32 < depth + 1 ∨ badPart part then false
      else
        match more with
        | none => true
        | some rest => partsLoop fuel (depth + 1) rest

def safeRelativeName (input : List UInt8) : Option (List UInt8) :=
  if input = [] ∨ 1024 < input.length then none
  else if (encode input).isNone then none
  else
    let path := input.map fun c => if c = 92 then 47 else c
    if path.head? = some 47 ∨ path.getLast? = some 47 then none
    else if partsLoop path.length 0 path then some path else none

-- ============================= descriptors

def kMaxEntries : Nat := 1024
def kMaxTotalBytes : Nat := 16 * 1024 * 1024 * 1024
def kDescriptorBytes : Nat := 592
def kMaxDescriptorBytes : Nat := 4 + kMaxEntries * kDescriptorBytes

structure RemoteClipboardFileEntry where
  index : Nat := 0
  relativeName : List UInt8 := []
  directory : Bool := false
  sizeKnown : Bool := false
  size : Nat := 0
deriving DecidableEq, Repr

inductive FileOfferState where
  | unavailable
  | failed
  | ready
deriving DecidableEq, Repr

structure RemoteClipboardFileOffer where
  schema : Nat := 1
  sequence : Nat := 0
  state : FileOfferState := .unavailable
  streamSupported : Bool := false
  lockSupported : Bool := false
  hugeFileSupported : Bool := false
  totalBytes : Nat := 0
  totalKnown : Bool := false
  entries : List RemoteClipboardFileEntry := []
  diagnosticCode : String := ""
deriving DecidableEq, Repr

def u16 (p : List UInt8) (i : Nat) : Nat :=
  (byteAt p i).toNat ||| (byteAt p (i + 1)).toNat <<< 8

def u32 (p : List UInt8) (i : Nat) : Nat :=
  u16 p i ||| u16 p (i + 2) <<< 16

/-- The units of the name before its terminator, at most 260. -/
def nameUnits (p : List UInt8) : Nat :=
  ((List.range 260).takeWhile fun i => u16 p (72 + i * 2) != 0).length

/-- The normalized name of a descriptor, or its refusal. -/
def descriptorName (p : List UInt8) : Option (List UInt8) :=
  let descriptorFlags := u32 p 0
  let attributes := u32 p 36
  if attributes &&& 0x400 ≠ 0
      ∨ attributes &&& 0x10 ≠ 0 ∧ descriptorFlags &&& 4 = 0 then none
  else
    let units := nameUnits p
    if units = 0 ∨ units = 260 then none
    else
      match decode ((p.drop 72).take ((units + 1) * 2)) with
      | none => none
      | some name => safeRelativeName name

def descriptorEntry (index : Nat) (p normalized : List UInt8) :
    RemoteClipboardFileEntry :=
  let descriptorFlags := u32 p 0
  let attributes := u32 p 36
  let directory := descriptorFlags &&& 4 ≠ 0 ∧ attributes &&& 0x10 ≠ 0
  let sizeKnown := directory ∨ descriptorFlags &&& 0x40 ≠ 0
  let size := if directory then 0 else u32 p 64 <<< 32 ||| u32 p 68
  { index := index
    relativeName := normalized
    directory := directory
    sizeKnown := sizeKnown
    size := if sizeKnown then size else 0 }

/-- The locals of the loop. -/
structure ParseState where
  offer : RemoteClipboardFileOffer
  paths : List (List UInt8 × Bool) := []
  prefixSpellings : List (List UInt8) := []

/-- An entry of unknown size leaves the total unknown. -/
def RemoteClipboardFileOffer.note (offer : RemoteClipboardFileOffer)
    (entry : RemoteClipboardFileEntry) : RemoteClipboardFileOffer :=
  if entry.sizeKnown then offer else { offer with totalKnown := false }

/-- The size check against what is left of the budget. -/
def overBudget (offer : RemoteClipboardFileOffer) (size : Nat) : Bool :=
  kMaxTotalBytes < size
    || (kMaxTotalBytes + 2 ^ 64 - offer.totalBytes) % 2 ^ 64 < size
    || !offer.hugeFileSupported && 0x80000000 ≤ size

/-- One turn of the loop; `.error` is the offer it returns. -/
def addDescriptor (s : ParseState) (index : Nat) (p : List UInt8) :
    Except RemoteClipboardFileOffer ParseState :=
  match descriptorName p with
  | none => .error s.offer
  | some normalized =>
    let key := folded normalized
    if (s.paths.lookup key).isSome then
      .error { s.offer with diagnosticCode := "duplicate_file_name" }
    else
      match enrollAll folded (pathPrefixes 47 normalized)
          s.prefixSpellings with
      | none =>
        .error { s.offer with diagnosticCode := "ambiguous_file_path" }
      | some prefixSpellings =>
        let entry := descriptorEntry index p normalized
        let offer := s.offer.note entry
        if overBudget offer entry.size then
          .error { offer with
            diagnosticCode := "file_size_budget_exceeded" }
        else .ok {
          offer := { offer with
            totalBytes := (offer.totalBytes + entry.size) % 2 ^ 64
            entries := offer.entries ++ [entry] }
          paths := s.paths ++ [(key, entry.directory)]
          prefixSpellings := prefixSpellings }

def addDescriptors :
    List (List UInt8) → Nat → ParseState →
      Except RemoteClipboardFileOffer ParseState
  | [], _, s => .ok s
  | p :: rest, index, s =>
    match addDescriptor s index p with
    | .error offer => .error offer
    | .ok s => addDescriptors rest (index + 1) s

/-- A regular file above another path. -/
def ancestorConflict (paths : List (List UInt8 × Bool)) : Bool :=
  paths.any fun path =>
    (prefixesAt 47 path.1).any fun ancestor =>
      paths.lookup ancestor == some false

/-- The descriptors behind the count. -/
def descriptors (data : List UInt8) (count : Nat) : List (List UInt8) :=
  (List.range count).map fun index =>
    (data.drop (4 + index * kDescriptorBytes)).take kDescriptorBytes

def parse (data : List UInt8) (sequence flags : Nat) :
    RemoteClipboardFileOffer :=
  let offer : RemoteClipboardFileOffer :=
    { sequence := sequence
      streamSupported := flags &&& 4 ≠ 0
      lockSupported := flags &&& 16 ≠ 0
      hugeFileSupported := flags &&& 32 ≠ 0
      state := .failed
      diagnosticCode := "invalid_file_descriptor" }
  if sequence = 0 ∨ ¬ offer.streamSupported ∨ data.length < 4
      ∨ kMaxDescriptorBytes < data.length then offer
  else
    let count := u32 data 0
    if count = 0 ∨ kMaxEntries < count
        ∨ data.length ≠ 4 + count * kDescriptorBytes then offer
    else
      match addDescriptors (descriptors data count) 0
          { offer := { offer with totalKnown := true } } with
      | .error offer => offer
      | .ok s =>
        if ancestorConflict s.paths then
          { s.offer with diagnosticCode := "file_directory_conflict" }
        else { s.offer with state := .ready, diagnosticCode := "" }

-- ============================== safe names

/-- The names of devices, in lower case. -/
def reservedNames : List (List UInt8) :=
  [ascii "con", ascii "prn", ascii "aux", ascii "nul"]
    ++ (List.range 9).map (fun n => ascii "com" ++ [UInt8.ofNat (49 + n)])
    ++ (List.range 9).map (fun n => ascii "lpt" ++ [UInt8.ofNat (49 + n)])

/-- A component that means the same file everywhere. -/
structure SafePart (part : List UInt8) : Prop where
  not_empty : part ≠ []
  not_dot : part ≠ ascii "."
  not_dots : part ≠ ascii ".."
  not_reserved : folded (part.takeWhile (· != 46)) ∉ reservedNames
  no_trailing_dot : part.getLast? ≠ some 46
  no_trailing_space : part.getLast? ≠ some 32

/-- A relative path of at most 32 safe components. -/
def SafeName (path : List UInt8) : Prop :=
  (path.splitOn 47).length ≤ 32 ∧ ∀ part ∈ path.splitOn 47, SafePart part

/-- `reserved` knows all the names. -/
theorem reserved_of_mem {name : List UInt8}
    (h : folded (name.takeWhile (· != 46)) ∈ reservedNames) :
    reserved name = true := by
  unfold reserved
  generalize folded (name.takeWhile (· != 46)) = base at h
  have hall : ∀ base ∈ reservedNames,
      (base == ascii "con" || base == ascii "prn" || base == ascii "aux"
        || base == ascii "nul"
        || base.length == 4
          && (base.take 3 == ascii "com" || base.take 3 == ascii "lpt")
          && 49 ≤ (byteAt base 3).toNat && (byteAt base 3).toNat ≤ 57)
        = true := by
    decide +kernel
  exact hall base h

theorem safePart_of_not_bad {part : List UInt8} (h : badPart part = false) :
    SafePart part := by
  simp only [badPart, Bool.or_eq_false_iff, beq_eq_false_iff_ne] at h
  obtain ⟨⟨⟨⟨⟨⟨⟨hempty, -⟩, hdot⟩, hdots⟩, hlast⟩, hspace⟩, hres⟩, -⟩ := h
  refine ⟨hempty, hdot, hdots, ?_, hlast, hspace⟩
  intro hmem
  rw [reserved_of_mem hmem] at hres
  cases hres

/-- The loop sees every component, and counts them. -/
theorem partsLoop_sound {fuel depth : Nat} {rest : List UInt8}
    (hfuel : rest.length ≤ fuel) (hne : rest ≠ [])
    (hlast : rest.getLast? ≠ some 47)
    (h : partsLoop fuel depth rest = true) :
    depth + (rest.splitOn 47).length ≤ 32
      ∧ ∀ part ∈ rest.splitOn 47, SafePart part := by
  induction fuel generalizing depth rest with
  | zero => exact absurd (List.eq_nil_of_length_eq_zero (by omega)) hne
  | succ fuel ih =>
    rw [partsLoop, if_neg hne] at h
    dsimp only at h
    split at h
    · cases h
    · rename_i hok
      rw [not_or, Bool.not_eq_true] at hok
      have hpart := safePart_of_not_bad hok.2
      rw [splitOn_eq_cut]
      cases hmore : (cut 47 rest).2 with
      | none =>
        rw [Option.elim_none]
        refine ⟨by simp only [List.length_singleton]; omega, ?_⟩
        intro part hmem
        rwa [List.mem_singleton.mp hmem]
      | some more =>
        rw [hmore] at h
        have hmne : more ≠ [] := by
          intro hnil
          rw [hnil] at hmore
          exact hlast (getLast?_cut_nil 47 hmore)
        have hshort := length_cut_some 47 hmore
        have hend := getLast?_cut_some 47 hmore hmne
        obtain ⟨hcount, hparts⟩ :=
          ih (by omega) hmne (by rwa [hend]) h
        rw [Option.elim_some]
        refine ⟨by rw [List.length_cons]; omega, ?_⟩
        intro part hmem
        rcases List.mem_cons.mp hmem with hfirst | hmem
        · rwa [hfirst]
        · exact hparts part hmem

theorem safeRelativeName_safe {input path : List UInt8}
    (h : safeRelativeName input = some path) : SafeName path := by
  unfold safeRelativeName at h
  split at h
  · cases h
  · rename_i hinput
    rw [not_or] at hinput
    split at h
    · cases h
    · dsimp only at h
      split at h
      · cases h
      · rename_i hends
        rw [not_or] at hends
        split at h
        · rename_i hloop
          cases h
          have hne : (input.map fun c => if c = 92 then 47 else c) ≠ [] := by
            simpa using hinput.1
          have hparts :=
            partsLoop_sound (Nat.le_refl _) hne hends.2 hloop
          exact ⟨by omega, hparts.2⟩
        · cases h

theorem descriptorName_safe {p name : List UInt8}
    (h : descriptorName p = some name) : SafeName name := by
  unfold descriptorName at h
  dsimp only at h
  split at h
  · cases h
  · split at h
    · cases h
    · split at h
      · cases h
      · exact safeRelativeName_safe h

-- =============== entries that fit together

/-- An entry apart from its place in the list. -/
def RemoteClipboardFileEntry.file (e : RemoteClipboardFileEntry) :
    RemoteClipboardFileEntry := { e with index := 0 }

/-- The file a descriptor stands for, wherever it stands. -/
def fileOf (p : List UInt8) : Option RemoteClipboardFileEntry :=
  (descriptorName p).map (descriptorEntry 0 p)

def entryKey (e : RemoteClipboardFileEntry) : List UInt8 :=
  folded e.relativeName

def entryPrefixes (e : RemoteClipboardFileEntry) : List (List UInt8) :=
  pathPrefixes 47 e.relativeName

def entryPath (e : RemoteClipboardFileEntry) : List UInt8 × Bool :=
  (entryKey e, e.directory)

/-- Entries the loop accepts together. -/
structure Fits (huge : Bool) (es : List RemoteClipboardFileEntry) :
    Prop where
  distinct : (es.map entryKey).Nodup
  spelling : OneSpelling folded (es.flatMap entryPrefixes)
  small : ∀ e ∈ es, huge = true ∨ e.size < 0x80000000
  total : (es.map (·.size)).sum ≤ kMaxTotalBytes

section Fits

variable {huge : Bool} {es es' : List RemoteClipboardFileEntry}

theorem Fits.nil : Fits huge [] where
  distinct := List.nodup_nil
  spelling := by intro p hp; cases hp
  small := by intro e he; cases he
  total := Nat.zero_le _

/-- The order does not matter. -/
theorem Fits.perm (h : Fits huge es) (hperm : es.Perm es') :
    Fits huge es' where
  distinct := (hperm.map entryKey).nodup_iff.mp h.distinct
  spelling := h.spelling.subset _ (hperm.symm.flatMap_right _).subset
  small := fun e he => h.small e (hperm.mem_iff.mpr he)
  total := by
    rw [← (hperm.map _).sum_eq]
    exact h.total

theorem Fits.left (h : Fits huge (es ++ es')) : Fits huge es where
  distinct := by
    have hall := h.distinct
    rw [List.map_append] at hall
    exact hall.of_append_left
  spelling := by
    apply h.spelling.subset
    rw [List.flatMap_append]
    exact List.subset_append_left _ _
  small := fun e he => h.small e (List.mem_append_left _ he)
  total := by
    have hall := h.total
    rw [List.map_append, List.sum_append] at hall
    omega

/-- The places in the list do not matter. -/
theorem fits_file : Fits huge (es.map (·.file)) ↔ Fits huge es := by
  have hkey : (es.map (·.file)).map entryKey = es.map entryKey := by
    rw [List.map_map]
    rfl
  have hcovers : (es.map (·.file)).flatMap entryPrefixes
      = es.flatMap entryPrefixes := by
    rw [List.flatMap_map]
    rfl
  have hsize : (es.map (·.file)).map (·.size) = es.map (·.size) := by
    rw [List.map_map]
    rfl
  have hsmall : (∀ e ∈ es.map (·.file), huge = true ∨ e.size < 0x80000000)
      ↔ ∀ e ∈ es, huge = true ∨ e.size < 0x80000000 :=
    List.forall_mem_map
  constructor
  · intro h
    exact ⟨hkey ▸ h.distinct, hcovers ▸ h.spelling, hsmall.mp h.small,
      hsize ▸ h.total⟩
  · intro h
    exact ⟨hkey ▸ h.distinct, hcovers ▸ h.spelling, hsmall.mpr h.small,
      hsize ▸ h.total⟩

/-- What one more entry must fit. -/
theorem fits_snoc {e : RemoteClipboardFileEntry} :
    Fits huge (es ++ [e]) ↔ Fits huge es ∧ entryKey e ∉ es.map entryKey
      ∧ OneSpelling folded (es.flatMap entryPrefixes ++ entryPrefixes e)
      ∧ (es.map (·.size)).sum + e.size ≤ kMaxTotalBytes
      ∧ (huge = true ∨ e.size < 0x80000000) := by
  have hcovers : (es ++ [e]).flatMap entryPrefixes
      = es.flatMap entryPrefixes ++ entryPrefixes e := by
    rw [List.flatMap_append, List.flatMap_singleton]
  have hsum : ((es ++ [e]).map (·.size)).sum
      = (es.map (·.size)).sum + e.size := by
    rw [List.map_append, List.sum_append]
    simp
  constructor
  · intro h
    refine ⟨h.left, ?_, hcovers ▸ h.spelling, hsum ▸ h.total,
      h.small e (by simp)⟩
    have hdistinct := h.distinct
    rw [List.map_append, List.nodup_append] at hdistinct
    intro hmem
    exact hdistinct.2.2 _ hmem _ (by simp) rfl
  · rintro ⟨h, hkey, hspelling, htotal, hsmall⟩
    refine ⟨?_, hcovers ▸ hspelling, ?_, hsum ▸ htotal⟩
    · rw [List.map_append, List.nodup_append]
      refine ⟨h.distinct, by simp, ?_⟩
      intro a ha b hb hab
      have hb' : b = entryKey e := by simpa using hb
      exact hkey (hb' ▸ hab ▸ ha)
    · intro a ha
      rcases List.mem_append.mp ha with ha | ha
      · exact h.small a ha
      · rwa [List.mem_singleton.mp ha]

end Fits

-- ================================ the loop

section Note

variable (offer : RemoteClipboardFileOffer) (e : RemoteClipboardFileEntry)

@[simp] theorem note_totalBytes :
    (offer.note e).totalBytes = offer.totalBytes := by
  unfold RemoteClipboardFileOffer.note
  split <;> rfl

@[simp] theorem note_hugeFileSupported :
    (offer.note e).hugeFileSupported = offer.hugeFileSupported := by
  unfold RemoteClipboardFileOffer.note
  split <;> rfl

@[simp] theorem note_state : (offer.note e).state = offer.state := by
  unfold RemoteClipboardFileOffer.note
  split <;> rfl

@[simp] theorem note_entries : (offer.note e).entries = offer.entries := by
  unfold RemoteClipboardFileOffer.note
  split <;> rfl

end Note

/-- What holds of an entry by itself. -/
structure GoodEntry (e : RemoteClipboardFileEntry) : Prop where
  safe : SafeName e.relativeName
  unknown : e.sizeKnown = false → e.size = 0

theorem goodEntry_descriptorEntry {p name : List UInt8}
    (h : descriptorName p = some name) (index : Nat) :
    GoodEntry (descriptorEntry index p name) where
  safe := descriptorName_safe h
  unknown := by
    intro hunknown
    unfold descriptorEntry at hunknown ⊢
    dsimp only at hunknown ⊢
    rw [decide_eq_false_iff_not] at hunknown
    exact if_neg hunknown

/-- The locals of the loop hold the entries read so far. -/
structure Tracks (huge : Bool) (es : List RemoteClipboardFileEntry)
    (s : ParseState) : Prop where
  state : s.offer.state = .failed
  entries : s.offer.entries = es
  hugeFile : s.offer.hugeFileSupported = huge
  paths : s.paths = es.map entryPath
  spellings : ∀ p, p ∈ s.prefixSpellings ↔ p ∈ es.flatMap entryPrefixes
  total : s.offer.totalBytes = (es.map (·.size)).sum
  fits : Fits huge es
  good : ∀ e ∈ es, GoodEntry e

variable {es : List RemoteClipboardFileEntry} {offer : RemoteClipboardFileOffer}
variable {huge : Bool} {records : List (List UInt8)} {head : List UInt8}

theorem lookup_entryPath_isSome {key : List UInt8} :
    ((es.map entryPath).lookup key).isSome = true
      ↔ key ∈ es.map entryKey := by
  rw [List.lookup_isSome_iff]
  simp only [List.mem_map, beq_iff_eq]
  constructor
  · rintro ⟨_, ⟨e, he, rfl⟩, hkey⟩
    exact ⟨e, he, hkey.symm⟩
  · rintro ⟨e, he, hkey⟩
    exact ⟨_, ⟨e, he, rfl⟩, hkey.symm⟩

/-- The size check, in numbers. -/
theorem overBudget_eq_false {size : Nat}
    (htotal : offer.totalBytes ≤ kMaxTotalBytes) :
    overBudget offer size = false ↔
      offer.totalBytes + size ≤ kMaxTotalBytes
        ∧ (offer.hugeFileSupported = true ∨ size < 0x80000000) := by
  have hmax : kMaxTotalBytes = 17179869184 := by decide
  have hleft : (kMaxTotalBytes + 2 ^ 64 - offer.totalBytes) % 2 ^ 64
      = kMaxTotalBytes - offer.totalBytes := by omega
  unfold overBudget
  rw [hleft]
  simp only [Bool.or_eq_false_iff, Bool.and_eq_false_iff,
    decide_eq_false_iff_not, not_lt, not_le, Bool.not_eq_false']
  constructor
  · rintro ⟨⟨hsize, hroom⟩, hhuge⟩
    exact ⟨by omega, hhuge⟩
  · rintro ⟨hroom, hhuge⟩
    exact ⟨⟨by omega, by omega⟩, hhuge⟩

section Loop

variable {s s' : ParseState} {index : Nat} {p name : List UInt8}

/-- Spellings already in the book and those of one more entry. -/
theorem Tracks.one_spelling (h : Tracks huge es s) :
    OneSpelling folded s.prefixSpellings :=
  h.fits.spelling.subset _ fun q hq => (h.spellings q).mp hq

/-- A turn that goes through adds an entry that fits. -/
theorem addDescriptor_ok (ht : Tracks huge es s)
    (h : addDescriptor s index p = .ok s') :
    ∃ name, descriptorName p = some name
      ∧ Tracks huge (es ++ [descriptorEntry index p name]) s' := by
  unfold addDescriptor at h
  split at h
  · cases h
  · rename_i name hname
    refine ⟨name, hname, ?_⟩
    dsimp only at h
    split at h
    · cases h
    · rename_i hkey
      split at h
      · cases h
      · rename_i spellings hspell
        generalize hentry : descriptorEntry index p name = e at h
        have hgood : GoodEntry e :=
          hentry ▸ goodEntry_descriptorEntry hname index
        have hname' : e.relativeName = name := by rw [← hentry]; rfl
        split at h
        · cases h
        · rename_i hbudget
          cases h
          rw [Bool.not_eq_true, overBudget_eq_false (by
            rw [note_totalBytes, ht.total]; exact ht.fits.total),
            note_totalBytes, ht.total, note_hugeFileSupported,
            ht.hugeFile] at hbudget
          obtain ⟨hmem, hone⟩ := enrollAll_eq_some folded hspell
          rw [ht.paths, lookup_entryPath_isSome] at hkey
          have hmem' : ∀ q, q ∈ spellings ↔
              q ∈ es.flatMap entryPrefixes ++ entryPrefixes e := by
            intro q
            rw [hmem, ht.spellings, List.mem_append, entryPrefixes, hname']
          have hfits : Fits huge (es ++ [e]) := by
            rw [fits_snoc]
            refine ⟨ht.fits, ?_, ?_, hbudget.1, hbudget.2⟩
            · rwa [entryKey, hname']
            · exact (hone ht.one_spelling).subset _
                fun q hq => (hmem' q).mpr hq
          refine ⟨?_, ?_, ?_, ?_, ?_, ?_, hfits, ?_⟩
          · change (s.offer.note e).state = .failed
            rw [note_state, ht.state]
          · change (s.offer.note e).entries ++ [e] = es ++ [e]
            rw [note_entries, ht.entries]
          · change (s.offer.note e).hugeFileSupported = huge
            rw [note_hugeFileSupported, ht.hugeFile]
          · change s.paths ++ [(folded name, e.directory)] = _
            rw [ht.paths, List.map_append, List.map_singleton, entryPath,
              entryKey, hname']
          · intro q
            rw [List.flatMap_append, List.flatMap_singleton]
            exact hmem' q
          · change ((s.offer.note e).totalBytes + e.size) % 2 ^ 64 = _
            have hmax : kMaxTotalBytes = 17179869184 := by decide
            rw [note_totalBytes, ht.total, List.map_append, List.sum_append,
              Nat.mod_eq_of_lt (by omega)]
            simp
          · intro a ha
            rcases List.mem_append.mp ha with ha | ha
            · exact ht.good a ha
            · rwa [List.mem_singleton.mp ha]

/-- A refused turn leaves the offer failed. -/
theorem addDescriptor_error (hs : s.offer.state = .failed)
    (h : addDescriptor s index p = .error offer) : offer.state = .failed := by
  unfold addDescriptor at h
  split at h
  · cases h
    exact hs
  · dsimp only at h
    split at h
    · cases h
      exact hs
    · split at h
      · cases h
        exact hs
      · split at h
        · cases h
          exact (note_state _ _).trans hs
        · cases h

/-- An entry that fits goes through. -/
theorem addDescriptor_fits (ht : Tracks huge es s)
    (hname : descriptorName p = some name)
    (hfits : Fits huge (es ++ [descriptorEntry index p name])) :
    ∃ s', addDescriptor s index p = .ok s' := by
  obtain ⟨-, hkey, hspell, htotal, hsmall⟩ := fits_snoc.mp hfits
  have hlookup : ¬ (s.paths.lookup (folded name)).isSome = true := by
    rw [ht.paths, lookup_entryPath_isSome]
    exact hkey
  obtain ⟨spellings, hspell⟩ := @enrollAll_isSome _ _ folded _ _
    (pathPrefixes 47 name) s.prefixSpellings (by
      apply hspell.subset
      intro q hq
      rcases List.mem_append.mp hq with hq | hq
      · exact List.mem_append_left _ ((ht.spellings q).mp hq)
      · exact List.mem_append_right _ hq)
  unfold addDescriptor
  rw [hname]
  dsimp only
  rw [if_neg hlookup, hspell]
  dsimp only
  rw [if_neg]
  · exact ⟨_, rfl⟩
  · rw [Bool.not_eq_true, overBudget_eq_false]
    · rw [note_totalBytes, note_hugeFileSupported, ht.total, ht.hugeFile]
      exact ⟨htotal, hsmall⟩
    · rw [note_totalBytes, ht.total]
      exact ht.fits.total

end Loop

theorem fileOf_eq_some {p : List UInt8} {f : RemoteClipboardFileEntry} :
    fileOf p = some f ↔
      ∃ name, descriptorName p = some name ∧ descriptorEntry 0 p name = f :=
  Option.map_eq_some_iff

/-- A run that goes through has read every descriptor. -/
theorem addDescriptors_ok {index : Nat} {s s' : ParseState}
    (ht : Tracks huge es s) (h : addDescriptors records index s = .ok s') :
    (∀ p ∈ records, (fileOf p).isSome = true)
      ∧ ∃ es', Tracks huge es' s'
        ∧ es'.map (·.file) = es.map (·.file) ++ records.filterMap fileOf := by
  induction records generalizing es index s with
  | nil =>
    cases h
    exact ⟨by simp, es, ht, by simp⟩
  | cons p records ih =>
    rw [addDescriptors] at h
    split at h
    · cases h
    · rename_i next hnext
      obtain ⟨name, hname, ht'⟩ := addDescriptor_ok ht hnext
      obtain ⟨hall, es', htracks, hfiles⟩ := ih ht' h
      have hfile : fileOf p = some (descriptorEntry 0 p name) :=
        fileOf_eq_some.mpr ⟨name, hname, rfl⟩
      refine ⟨?_, es', htracks, ?_⟩
      · rw [List.forall_mem_cons]
        exact ⟨by rw [hfile]; rfl, hall⟩
      · rw [hfiles, List.map_append, List.filterMap_cons_some hfile,
          List.append_assoc]
        rfl

theorem addDescriptors_error {index : Nat} {s : ParseState}
    (ht : Tracks huge es s)
    (h : addDescriptors records index s = .error offer) :
    offer.state = .failed := by
  induction records generalizing es index s with
  | nil => cases h
  | cons p records ih =>
    rw [addDescriptors] at h
    split at h
    · rename_i hnext
      cases h
      exact addDescriptor_error ht.state hnext
    · rename_i next hnext
      obtain ⟨name, -, ht'⟩ := addDescriptor_ok ht hnext
      exact ih ht' h

/-- A run over entries that fit goes through. -/
theorem addDescriptors_fits {huge : Bool} {records : List (List UInt8)}
    {es : List RemoteClipboardFileEntry} {index : Nat} {s : ParseState}
    (ht : Tracks huge es s)
    (hall : ∀ p ∈ records, (fileOf p).isSome = true)
    (hfits : Fits huge
      (es.map (·.file) ++ records.filterMap fileOf)) :
    ∃ s', addDescriptors records index s = .ok s' := by
  induction records generalizing es index s with
  | nil => exact ⟨s, rfl⟩
  | cons p records ih =>
    obtain ⟨hp, hrest⟩ := List.forall_mem_cons.mp hall
    obtain ⟨f, hfile⟩ := Option.isSome_iff_exists.mp hp
    obtain ⟨name, hname, rfl⟩ := fileOf_eq_some.mp hfile
    have hmap : (es ++ [descriptorEntry index p name]).map (·.file)
        = es.map (·.file) ++ [descriptorEntry 0 p name] := by
      rw [List.map_append]
      rfl
    rw [List.filterMap_cons_some hfile, List.append_cons, ← hmap] at hfits
    obtain ⟨next, hnext⟩ :=
      addDescriptor_fits ht hname (fits_file.mp hfits.left)
    obtain ⟨name', hname', ht'⟩ := addDescriptor_ok ht hnext
    rw [hname] at hname'
    cases hname'
    rw [addDescriptors, hnext]
    exact ih ht' hrest hfits

-- =============================== the offer

/-- A regular file above another entry. -/
def FileAncestor (es : List RemoteClipboardFileEntry) : Prop :=
  ∃ a ∈ es, ∃ b ∈ es, a.directory = false
    ∧ entryKey a ++ [47] <+: entryKey b

/-- With distinct keys, the map knows every entry by its key. -/
theorem lookup_entryPath (hdistinct : (es.map entryKey).Nodup)
    {key : List UInt8} {d : Bool} :
    (es.map entryPath).lookup key = some d
      ↔ ∃ a ∈ es, entryKey a = key ∧ a.directory = d := by
  induction es with
  | nil => simp
  | cons e es ih =>
    rw [List.map_cons, List.nodup_cons] at hdistinct
    rw [List.map_cons, entryPath, List.lookup_cons]
    by_cases h : key = entryKey e
    · rw [h, beq_self_eq_true]
      constructor
      · intro hd
        exact ⟨e, List.mem_cons_self, rfl, Option.some.inj hd⟩
      · rintro ⟨a, ha, hkey, hd⟩
        rcases List.mem_cons.mp ha with rfl | ha'
        · exact congrArg some hd
        · exact absurd (hkey ▸ List.mem_map_of_mem ha') hdistinct.1
    · rw [beq_false_of_ne h]
      refine (ih hdistinct.2).trans ?_
      constructor
      · rintro ⟨a, ha, hkey, hd⟩
        exact ⟨a, List.mem_cons_of_mem _ ha, hkey, hd⟩
      · rintro ⟨a, ha, hkey, hd⟩
        rcases List.mem_cons.mp ha with rfl | ha'
        · exact absurd hkey.symm h
        · exact ⟨a, ha', hkey, hd⟩

theorem ancestorConflict_iff (hdistinct : (es.map entryKey).Nodup) :
    ancestorConflict (es.map entryPath) = true ↔ FileAncestor es := by
  unfold ancestorConflict FileAncestor
  simp only [List.any_eq_true, List.mem_map, beq_iff_eq,
    lookup_entryPath hdistinct, mem_prefixesAt]
  constructor
  · rintro ⟨_, ⟨b, hb, rfl⟩, k, hk, a, ha, hkey, hd⟩
    exact ⟨a, ha, b, hb, hd, hkey ▸ hk⟩
  · rintro ⟨a, ha, b, hb, hd, hcovered⟩
    exact ⟨_, ⟨b, hb, rfl⟩, _, hcovered, a, ha, rfl, hd⟩

theorem fileAncestor_file :
    FileAncestor (es.map (·.file)) ↔ FileAncestor es := by
  unfold FileAncestor
  constructor
  · rintro ⟨a', ha', b', hb', hd, hcovered⟩
    obtain ⟨a, ha, rfl⟩ := List.mem_map.mp ha'
    obtain ⟨b, hb, rfl⟩ := List.mem_map.mp hb'
    exact ⟨a, ha, b, hb, hd, hcovered⟩
  · rintro ⟨a, ha, b, hb, hd, hcovered⟩
    exact ⟨_, List.mem_map_of_mem ha, _, List.mem_map_of_mem hb, hd, hcovered⟩

/-- A list of descriptors that is accepted. -/
structure Acceptable (huge : Bool) (records : List (List UInt8)) :
    Prop where
  read : ∀ p ∈ records, (fileOf p).isSome = true
  fits : Fits huge (records.filterMap fileOf)
  ancestors : ¬ FileAncestor (records.filterMap fileOf)

/-- Acceptance does not depend on the order of the descriptors. -/
theorem Acceptable.perm {records' : List (List UInt8)}
    (h : Acceptable huge records) (hperm : records.Perm records') :
    Acceptable huge records' where
  read := fun p hp => h.read p (hperm.mem_iff.mpr hp)
  fits := h.fits.perm (hperm.filterMap fileOf)
  ancestors := by
    have hfiles := hperm.filterMap fileOf
    rintro ⟨a, ha, b, hb, hd, hcovered⟩
    exact h.ancestors ⟨a, hfiles.mem_iff.mpr ha, b, hfiles.mem_iff.mpr hb,
      hd, hcovered⟩

/-- The counts and sizes `parse` checks first. -/
def WellSized (data : List UInt8) (sequence flags : Nat) : Prop :=
  sequence ≠ 0 ∧ flags &&& 4 ≠ 0 ∧ 4 ≤ data.length
    ∧ data.length ≤ kMaxDescriptorBytes ∧ u32 data 0 ≠ 0
    ∧ u32 data 0 ≤ kMaxEntries
    ∧ data.length = 4 + u32 data 0 * kDescriptorBytes

/-- The offer the loop starts from. -/
def startOffer (sequence flags : Nat) : RemoteClipboardFileOffer :=
  { sequence := sequence
    streamSupported := flags &&& 4 ≠ 0
    lockSupported := flags &&& 16 ≠ 0
    hugeFileSupported := flags &&& 32 ≠ 0
    state := .failed
    diagnosticCode := "invalid_file_descriptor"
    totalKnown := true }

theorem tracks_start (sequence flags : Nat) :
    Tracks (flags &&& 32 ≠ 0) [] { offer := startOffer sequence flags } where
  state := rfl
  entries := rfl
  hugeFile := rfl
  paths := rfl
  spellings := by simp
  total := rfl
  fits := .nil
  good := by simp

/-- What a ready offer was made from. -/
theorem parse_ready {data : List UInt8} {sequence flags : Nat}
    (h : (parse data sequence flags).state = .ready) :
    WellSized data sequence flags ∧ ∃ es s,
      parse data sequence flags
        = { s.offer with state := .ready, diagnosticCode := "" }
      ∧ Tracks (flags &&& 32 ≠ 0) es s ∧ ¬ FileAncestor es
      ∧ (∀ p ∈ descriptors data (u32 data 0), (fileOf p).isSome = true)
      ∧ es.map (·.file)
        = (descriptors data (u32 data 0)).filterMap fileOf := by
  have hstart := tracks_start sequence flags
  unfold parse at h ⊢
  dsimp only at h ⊢
  split at h
  · cases h
  · rename_i hhead
    split at h
    · cases h
    · rename_i hcount
      rw [if_neg hhead, if_neg hcount]
      simp only [not_or, not_not, not_lt, decide_eq_true_eq] at hhead hcount
      refine ⟨⟨hhead.1, hhead.2.1, hhead.2.2.1, hhead.2.2.2, hcount.1,
        hcount.2.1, hcount.2.2⟩, ?_⟩
      split at h
      · rename_i offer hrun
        rw [addDescriptors_error hstart hrun] at h
        cases h
      · rename_i s hrun
        obtain ⟨hall, es, htracks, hfiles⟩ := addDescriptors_ok hstart hrun
        split at h
        · change s.offer.state = .ready at h
          rw [htracks.state] at h
          cases h
        · rename_i hconflict
          refine ⟨es, s, ?_, htracks, ?_, hall, by simpa using hfiles⟩
          · exact if_neg hconflict
          · rwa [htracks.paths,
              ancestorConflict_iff htracks.fits.distinct] at hconflict

theorem parse_ready_iff {data : List UInt8} {sequence flags : Nat} :
    (parse data sequence flags).state = .ready ↔
      WellSized data sequence flags
        ∧ Acceptable (flags &&& 32 ≠ 0)
            (descriptors data (u32 data 0)) := by
  constructor
  · intro h
    obtain ⟨hsized, es, s, -, htracks, hancestors, hall, hfiles⟩ :=
      parse_ready h
    refine ⟨hsized, hall, ?_, ?_⟩
    · rw [← hfiles, fits_file]
      exact htracks.fits
    · rwa [← hfiles, fileAncestor_file]
  · rintro ⟨⟨hseq, hstream, hlen, hmax, h0, hentries, hsize⟩, hall, hfits,
      hancestors⟩
    have hstart := tracks_start sequence flags
    obtain ⟨s, hrun⟩ := @addDescriptors_fits _ _ _ 0 _ hstart hall
      (by simpa using hfits)
    obtain ⟨-, es, htracks, hfiles⟩ := addDescriptors_ok hstart hrun
    have hfiles' : es.map (·.file)
        = (descriptors data (u32 data 0)).filterMap fileOf := by
      simpa using hfiles
    rw [← hfiles', fileAncestor_file,
      ← ancestorConflict_iff htracks.fits.distinct, ← htracks.paths]
      at hancestors
    unfold parse
    dsimp only
    rw [if_neg (by simp [hseq, hstream]; omega),
      if_neg (by simp [h0, hsize]; omega)]
    change (match addDescriptors (descriptors data (u32 data 0)) 0
      { offer := startOffer sequence flags } with
      | .error offer => offer
      | .ok s => _).state = _
    rw [hrun]
    dsimp only
    rw [if_neg hancestors]

-- ================================== safety

/-- What the rest of the program relies on in a ready offer. -/
structure SafeOffer (offer : RemoteClipboardFileOffer) : Prop where
  names : ∀ e ∈ offer.entries, SafeName e.relativeName
  distinct : offer.entries.Pairwise fun a b =>
    folded a.relativeName ≠ folded b.relativeName
  spelling : ∀ a ∈ offer.entries, ∀ b ∈ offer.entries, ∀ p q,
    (p = a.relativeName ∨ p ++ [47] <+: a.relativeName) →
    (q = b.relativeName ∨ q ++ [47] <+: b.relativeName) →
    folded p = folded q → p = q
  ancestors : ∀ a ∈ offer.entries, ∀ b ∈ offer.entries,
    a.directory = false →
      ¬ folded a.relativeName ++ [47] <+: folded b.relativeName
  total : ((offer.entries.filter (·.sizeKnown)).map (·.size)).sum
    = offer.totalBytes
  limit : offer.totalBytes ≤ kMaxTotalBytes

/-- Entries of unknown size add nothing. -/
theorem sum_known (h : ∀ e ∈ es, GoodEntry e) :
    ((es.filter (·.sizeKnown)).map (·.size)).sum
      = (es.map (·.size)).sum := by
  induction es with
  | nil => rfl
  | cons e es ih =>
    obtain ⟨he, hes⟩ := List.forall_mem_cons.mp h
    rw [List.map_cons, List.sum_cons, ← ih hes]
    by_cases hknown : e.sizeKnown = true
    · rw [List.filter_cons_of_pos hknown, List.map_cons, List.sum_cons]
    · rw [List.filter_cons_of_neg hknown,
        he.unknown (by simpa using hknown), Nat.zero_add]

theorem Tracks.safeOffer {s : ParseState} (h : Tracks huge es s)
    (hancestors : ¬ FileAncestor es) :
    SafeOffer { s.offer with state := .ready, diagnosticCode := "" } where
  names := by
    change ∀ e ∈ s.offer.entries, _
    rw [h.entries]
    exact fun e he => (h.good e he).safe
  distinct := by
    change s.offer.entries.Pairwise _
    rw [h.entries]
    exact List.pairwise_map.mp h.fits.distinct
  spelling := by
    change ∀ a ∈ s.offer.entries, ∀ b ∈ s.offer.entries, _
    rw [h.entries]
    intro a ha b hb p q hp hq hkey
    have hmem : ∀ {e p}, e ∈ es →
        (p = e.relativeName ∨ p ++ [47] <+: e.relativeName) →
        p ∈ es.flatMap entryPrefixes := by
      intro e p he hp
      exact List.mem_flatMap.mpr ⟨e, he, (mem_pathPrefixes 47).mpr hp⟩
    exact h.fits.spelling p (hmem ha hp) q (hmem hb hq) hkey
  ancestors := by
    change ∀ a ∈ s.offer.entries, ∀ b ∈ s.offer.entries, _
    rw [h.entries]
    intro a ha b hb hd hcovered
    exact hancestors ⟨a, ha, b, hb, hd, hcovered⟩
  total := by
    change ((s.offer.entries.filter _).map _).sum = s.offer.totalBytes
    rw [h.entries, h.total]
    exact sum_known h.good
  limit := by
    change s.offer.totalBytes ≤ _
    rw [h.total]
    exact h.fits.total

-- =================================== order

/-- The records of a list are the pieces of its bytes. -/
theorem descriptors_flatten (hhead : head.length = 4)
    (hrecords : ∀ r ∈ records, r.length = kDescriptorBytes) :
    descriptors (head ++ records.flatten) records.length = records := by
  have hpiece : ∀ (before : List (List UInt8)) {r : List UInt8}
      (after : List (List UInt8)),
      (∀ x ∈ before, x.length = kDescriptorBytes) →
      r.length = kDescriptorBytes →
      ((before ++ r :: after).flatten.drop
        (before.length * kDescriptorBytes)).take kDescriptorBytes = r := by
    intro before r after hbefore hr
    have hlen : before.flatten.length
        = before.length * kDescriptorBytes := by
      rw [List.length_flatten, List.map_congr_left hbefore,
        List.map_const', List.sum_replicate, smul_eq_mul]
    rw [List.flatten_append, List.flatten_cons, List.drop_left' hlen,
      List.take_left' hr]
  unfold descriptors
  apply List.ext_getElem
  · rw [List.length_map, List.length_range]
  · intro i hi hi'
    have hsplit : records
        = records.take i ++ records[i] :: records.drop (i + 1) := by
      rw [List.getElem_cons_drop, List.take_append_drop]
    have htake : (records.take i).length = i :=
      List.length_take_of_le (Nat.le_of_lt hi')
    have hi4 := hpiece (records.take i) (r := records[i])
      (records.drop (i + 1))
      (fun x hx => hrecords x (List.mem_of_mem_take hx))
      (hrecords _ (List.getElem_mem hi'))
    rw [← hsplit, htake] at hi4
    rw [List.getElem_map, List.getElem_range, ← hhead, ← List.drop_drop,
      List.drop_left]
    exact hi4

theorem u32_append {rest : List UInt8} (h : head.length = 4) :
    u32 (head ++ rest) 0 = u32 head 0 := by
  have hbyte : ∀ i < 4, byteAt (head ++ rest) i = byteAt head i := by
    intro i hi
    unfold byteAt
    exact List.getD_append _ _ _ _ (by omega)
  unfold u32 u16
  rw [hbyte 0 (by omega), hbyte 1 (by omega), hbyte 2 (by omega),
    hbyte 3 (by omega)]

/-- One direction of the independence of the order. -/
theorem parse_perm {records' : List (List UInt8)} (hhead : head.length = 4)
    (hrecords : ∀ r ∈ records, r.length = kDescriptorBytes)
    (hperm : records.Perm records') {sequence flags : Nat}
    (h : (parse (head ++ records.flatten) sequence flags).state = .ready) :
    (parse (head ++ records'.flatten) sequence flags).state = .ready := by
  have hrecords' : ∀ r ∈ records', r.length = kDescriptorBytes :=
    fun r hr => hrecords r (hperm.mem_iff.mpr hr)
  have hlen : (head ++ records'.flatten).length
      = (head ++ records.flatten).length := by
    rw [List.length_append, List.length_append, hperm.flatten.length_eq]
  obtain ⟨⟨hseq, hstream, h4, hmax, h0, hentries, hsize⟩, haccept⟩ :=
    parse_ready_iff.mp h
  rw [u32_append hhead] at h0 hentries hsize haccept
  have hcount : u32 head 0 = records.length := by
    have hflat : records.flatten.length
        = records.length * kDescriptorBytes := by
      rw [List.length_flatten, List.map_congr_left hrecords,
        List.map_const', List.sum_replicate, smul_eq_mul]
    rw [List.length_append, hhead, hflat] at hsize
    have hbytes : 0 < kDescriptorBytes := by decide
    exact (Nat.mul_right_cancel hbytes (Nat.add_left_cancel hsize)).symm
  rw [hcount, descriptors_flatten hhead hrecords] at haccept
  apply parse_ready_iff.mpr
  rw [WellSized, u32_append hhead, hlen, hcount, hperm.length_eq,
    descriptors_flatten hhead hrecords']
  rw [hcount, hperm.length_eq] at h0 hentries hsize
  exact ⟨⟨hseq, hstream, h4, hmax, h0, hentries, hsize⟩,
    haccept.perm hperm⟩

/-- A ready offer is safe, and whether a list is accepted does not depend
on the order of its descriptors. -/
theorem parse_safe :
    (∀ data sequence flags,
      (parse data sequence flags).state = .ready →
        SafeOffer (parse data sequence flags))
    ∧ ∀ (head : List UInt8) (records records' : List (List UInt8))
        (sequence flags : Nat), head.length = 4 →
        (∀ r ∈ records, r.length = kDescriptorBytes) →
        records.Perm records' →
        ((parse (head ++ records.flatten) sequence flags).state = .ready
          ↔ (parse (head ++ records'.flatten) sequence flags).state
              = .ready) := by
  constructor
  · intro data sequence flags h
    obtain ⟨-, es, s, hoffer, htracks, hancestors, -⟩ := parse_ready h
    rw [hoffer]
    exact htracks.safeOffer hancestors
  · intro head records records' sequence flags hhead hrecords hperm
    constructor
    · exact parse_perm hhead hrecords hperm
    · exact parse_perm hhead
        (fun r hr => hrecords r (hperm.mem_iff.mpr hr)) hperm.symm

/-- The descriptor of a file of unknown size with a short name. -/
def plainDescriptor (name : List UInt8) : List UInt8 :=
  List.replicate 72 0 ++ name.flatMap (fun c => [c, 0])
    ++ List.replicate (520 - 2 * name.length) 0

theorem parse_safe_two :
    SafeOffer (parse ([2, 0, 0, 0] ++ [plainDescriptor (ascii "d/a"),
      plainDescriptor (ascii "B")].flatten) 1 4)
    ∧ ((parse ([2, 0, 0, 0] ++ [plainDescriptor (ascii "d/a"),
        plainDescriptor (ascii "B")].flatten) 1 4).state = .ready
      ↔ (parse ([2, 0, 0, 0] ++ [plainDescriptor (ascii "B"),
        plainDescriptor (ascii "d/a")].flatten) 1 4).state = .ready) :=
  ⟨parse_safe.1 _ _ _ (by decide +kernel),
    parse_safe.2 _ _ _ _ _ rfl (by decide +kernel) (List.Perm.swap _ _ _)⟩

end RemoteDesk.Clipboard
