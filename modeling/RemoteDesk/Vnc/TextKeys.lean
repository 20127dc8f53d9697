/-
Text typed into a VNC session (`vnc_rfb_protocol.cpp`).

A text becomes key events: for each code point its keysym goes down and up. The
UTF-8 reader here reads what the one of the clipboard codec reads
(`decodeNextUtf8Codepoint_eq`), so both accept the encodings of `Lib.Unicode`.
-/
import RemoteDesk.Clipboard.TextCodec
import RemoteDesk.Vnc.PixelFormat

namespace RemoteDesk.Vnc

open Lib
open RemoteDesk.Clipboard (takeUtf8 utf8Lead utf8Continue)

-- ================================== reader

/-- What the lead byte says: the bytes that follow, its own bits, and the least code
point that needs as many. -/
def leadByte (first : Nat) : Option (Nat × Nat × Nat) :=
  if first ≥ 0xC2 ∧ first ≤ 0xDF then some (1, first &&& 0x1F, 0x80)
  else if first ≥ 0xE0 ∧ first ≤ 0xEF then some (2, first &&& 0x0F, 0x800)
  else if first ≥ 0xF0 ∧ first ≤ 0xF4 then some (3, first &&& 0x07, 0x10000)
  else none

/-- The loop over the bytes that follow. -/
def continueValue (value : Nat) : Bytes → Option Nat
  | [] => some value
  | continuation :: rest =>
    if continuation.toNat &&& 0xC0 ≠ 0x80 then none
    else continueValue (value <<< 6 ||| (continuation.toNat &&& 0x3F)) rest

/-- The next code point, and the text behind it. -/
def decodeNextUtf8Codepoint : Bytes → Option (Nat × Bytes)
  | [] => none
  | first :: rest =>
    if first.toNat ≤ 0x7F then some (first.toNat, rest)
    else
      match leadByte first.toNat with
      | none => none
      | some (continuationCount, bits, minimum) =>
        if continuationCount > rest.length then none
        else
          match continueValue bits (rest.take continuationCount) with
          | none => none
          | some value =>
            if value < minimum ∨ value > 0x10FFFF
                ∨ value ≥ 0xD800 ∧ value ≤ 0xDFFF then none
            else some (value, rest.drop continuationCount)

-- ================================== events

def codepointToKeysym (codepoint : Nat) : Option Nat :=
  if codepoint = 0x08 then some 0xFF08
  else if codepoint = 0x09 then some 0xFF09
  else if codepoint = 0x0A ∨ codepoint = 0x0D then some 0xFF0D
  else if codepoint = 0x1B then some 0xFF1B
  else if codepoint = 0x7F then some 0xFFFF
  else if codepoint < 0x20 then none
  else if codepoint ≤ 0xFF then some codepoint
  else if codepoint ≤ 0x10FFFF then some (0x01000000 ||| codepoint)
  else none

/-- What `appendKeyEvent` appends. -/
def keyEvent (keysym : Nat) (pressed : Bool) : Bytes :=
  [4, if pressed then 1 else 0, 0, 0, UInt8.ofNat (keysym >>> 24),
    UInt8.ofNat (keysym >>> 16), UInt8.ofNat (keysym >>> 8), UInt8.ofNat keysym]

def maxTextInputCodepoints : Nat := 4096

/-- The loop of `buildTextKeyEvents`. A code point is at least a byte, so the length
of the text is enough `fuel`. -/
def keyEventsFrom : Nat → Nat → Bytes → Bytes → Except String Bytes
  | _, _, candidate, [] => .ok candidate
  | 0, _, _, _ :: _ => .error "VNC text input is not valid UTF-8"
  | fuel + 1, codepointCount, candidate, first :: text =>
    if codepointCount + 1 > maxTextInputCodepoints then
      .error "VNC text input exceeds the safe codepoint limit"
    else
      match decodeNextUtf8Codepoint (first :: text) with
      | none => .error "VNC text input is not valid UTF-8"
      | some (codepoint, rest) =>
        match codepointToKeysym codepoint with
        | none =>
          .error "VNC text input contains an unsupported control character"
        | some keysym =>
          keyEventsFrom fuel (codepointCount + 1)
            (candidate ++ keyEvent keysym true ++ keyEvent keysym false) rest

/-- The packet, and why there is none; it is empty then. -/
def buildTextKeyEvents (text : Bytes) : Bytes × Option String :=
  match keyEventsFrom text.length 0 [] text with
  | .ok candidate => (candidate, none)
  | .error error => ([], some error)

-- ===================== what is well formed

/-- A control character that has no key. -/
def Unsupported (c : Char) : Prop :=
  c.toNat < 0x20 ∧ c.toNat ∉ [0x08, 0x09, 0x0A, 0x0D, 0x1B]

/-- The key of a character goes down and up. -/
def typed (c : Char) : Bytes :=
  (codepointToKeysym c.toNat).elim [] fun keysym =>
    keyEvent keysym true ++ keyEvent keysym false

theorem leadByte_eq {first count bits minimum : Nat} (h : 0x7F < first) :
    leadByte first = some (count, bits, minimum)
      ↔ utf8Lead first = some (bits, count, minimum) := by
  rw [leadByte, utf8Lead]
  by_cases htwo : 0xC2 ≤ first ∧ first ≤ 0xDF
  · rw [if_pos htwo, if_pos htwo]
    simp only [Option.some.injEq, Prod.mk.injEq]
    tauto
  rw [if_neg htwo, if_neg htwo]
  by_cases hthree : 0xE0 ≤ first ∧ first ≤ 0xEF
  · rw [if_pos hthree, if_pos hthree]
    simp only [Option.some.injEq, Prod.mk.injEq]
    tauto
  rw [if_neg hthree, if_neg hthree]
  by_cases hfour : 0xF0 ≤ first ∧ first ≤ 0xF4
  · rw [if_pos hfour, if_pos hfour]
    simp only [Option.some.injEq, Prod.mk.injEq]
    tauto
  rw [if_neg hfour, if_neg hfour, if_pos (by omega)]
  simp

variable {codepoint : Nat}

/-- The loop over the bytes in front is the loop over all bytes. -/
theorem utf8Continue_eq {count value : Nat} {bytes rest : Bytes} :
    utf8Continue count value bytes = some (codepoint, rest)
      ↔ count ≤ bytes.length ∧ continueValue value (bytes.take count) = some codepoint
        ∧ rest = bytes.drop count := by
  induction count generalizing value bytes with
  | zero =>
    rw [utf8Continue, List.take_zero, continueValue, List.drop_zero]
    simp only [Option.some.injEq, Prod.mk.injEq, Nat.zero_le, true_and]
    exact and_congr_right fun _ => eq_comm
  | succ count ih =>
    cases bytes with
    | nil => simp [utf8Continue]
    | cons next bytes =>
      rw [utf8Continue, List.take_succ_cons, continueValue, List.drop_succ_cons,
        List.length_cons]
      by_cases hnext : next.toNat &&& 0xC0 ≠ 0x80
      · rw [if_pos hnext, if_pos hnext]
        simp
      · rw [if_neg hnext, if_neg hnext, ih]
        simp

/-- What the lead byte promised is there, and fits. -/
theorem decodeNextUtf8Codepoint_cons {first : UInt8} {text rest : Bytes}
    (h : 0x7F < first.toNat) :
    decodeNextUtf8Codepoint (first :: text) = some (codepoint, rest)
      ↔ ∃ count bits minimum, leadByte first.toNat = some (count, bits, minimum)
        ∧ count ≤ text.length ∧ continueValue bits (text.take count) = some codepoint
        ∧ rest = text.drop count ∧ minimum ≤ codepoint ∧ IsScalar codepoint := by
  have hfits : ∀ minimum value : Nat, ¬ (value < minimum ∨ value > 0x10FFFF
      ∨ value ≥ 0xD800 ∧ value ≤ 0xDFFF) ↔ minimum ≤ value ∧ IsScalar value := by
    intro minimum value
    rw [isScalar_iff]
    omega
  rw [decodeNextUtf8Codepoint, if_neg (by omega)]
  rcases leadByte first.toNat with _ | ⟨count, bits, minimum⟩
  · simp
  dsimp only
  constructor
  · intro hread
    split at hread
    · cases hread
    rename_i hroom
    rcases hvalue : continueValue bits (text.take count) with _ | value
    · rw [hvalue] at hread
      cases hread
    rw [hvalue] at hread
    dsimp only at hread
    split at hread
    · cases hread
    rename_i hvalid
    cases hread
    exact ⟨count, bits, minimum, rfl, by omega, hvalue, rfl, (hfits _ _).1 hvalid⟩
  · rintro ⟨_, _, _, hlead, hroom, hvalue, rfl, hvalid⟩
    cases hlead
    rw [if_neg (by omega), hvalue]
    exact if_neg ((hfits _ _).2 hvalid)

/-- The two readers read the same. -/
theorem decodeNextUtf8Codepoint_eq {text rest : Bytes} :
    decodeNextUtf8Codepoint text = some (codepoint, rest)
      ↔ takeUtf8 text = some (codepoint, rest) := by
  cases text with
  | nil => exact ⟨fun h => (by cases h), fun h => (by cases h)⟩
  | cons first text =>
    rw [Clipboard.takeUtf8_cons]
    by_cases hascii : first.toNat ≤ 0x7F
    · rw [decodeNextUtf8Codepoint, if_pos hascii]
      have hlead : utf8Lead first.toNat = some (first.toNat, 0, 0) :=
        Clipboard.utf8Lead_eq_some.2 (.inl ⟨by omega, rfl, rfl, rfl⟩)
      constructor
      · intro h
        cases h
        exact ⟨first.toNat, 0, 0, hlead, rfl, Nat.zero_le _,
          isScalar_iff.2 (by omega)⟩
      · rintro ⟨bits, count, minimum, hread, hcontinue, -⟩
        cases hlead.symm.trans hread
        exact hcontinue
    · have hlong : 0x7F < first.toNat := Nat.lt_of_not_le hascii
      rw [decodeNextUtf8Codepoint_cons hlong]
      constructor
      · rintro ⟨count, bits, minimum, hlead, hroom, hvalue, hrest, hvalid⟩
        exact ⟨bits, count, minimum, (leadByte_eq hlong).1 hlead,
          utf8Continue_eq.2 ⟨hroom, hvalue, hrest⟩, hvalid⟩
      · rintro ⟨bits, count, minimum, hlead, hcontinue, hvalid⟩
        obtain ⟨hroom, hvalue, hrest⟩ := utf8Continue_eq.1 hcontinue
        exact ⟨count, bits, minimum, (leadByte_eq hlong).2 hlead, hroom, hvalue,
          hrest, hvalid⟩

/-- The reader reads the encoding of one character. -/
theorem decodeNextUtf8Codepoint_char {text rest : Bytes} :
    decodeNextUtf8Codepoint text = some (codepoint, rest)
      ↔ ∃ c : Char, codepoint = c.toNat
        ∧ text = String.utf8EncodeChar c ++ rest :=
  decodeNextUtf8Codepoint_eq.trans Clipboard.takeUtf8_eq_some

-- ================================= packets

/-- Only the control characters without a key have no keysym. -/
theorem codepointToKeysym_none (c : Char) :
    codepointToKeysym c.toNat = none ↔ Unsupported c := by
  have hscalar := isScalar_iff.1 (isScalar_toNat c)
  rw [Unsupported, codepointToKeysym]
  simp only [List.mem_cons, List.not_mem_nil, or_false]
  repeat' split
  all_goals simp only [reduceCtorEq, true_iff, false_iff]
  all_goals omega

theorem typed_of_keysym {c : Char} {keysym : Nat}
    (h : codepointToKeysym c.toNat = some keysym) :
    typed c = keyEvent keysym true ++ keyEvent keysym false := by
  rw [typed, h]
  rfl

/-- The end of the text. -/
theorem keyEventsFrom_nil {fuel codepointCount : Nat} {candidate packet : Bytes}
    (hcount : codepointCount ≤ maxTextInputCodepoints) :
    keyEventsFrom fuel codepointCount candidate [] = .ok packet
      ↔ ∃ cs : List Char, [] = utf8 cs
        ∧ codepointCount + cs.length ≤ maxTextInputCodepoints
        ∧ (∀ c ∈ cs, ¬ Unsupported c) ∧ packet = candidate ++ cs.flatMap typed := by
  have hend : keyEventsFrom fuel codepointCount candidate [] = .ok candidate := by
    cases fuel <;> rfl
  rw [hend]
  constructor
  · intro h
    cases h
    exact ⟨[], rfl, hcount, List.forall_mem_nil _, (List.append_nil _).symm⟩
  · rintro ⟨cs, hempty, -, -, rfl⟩
    have hnil : cs = [] := Clipboard.utf8_inj hempty.symm
    rw [hnil, List.flatMap_nil, List.append_nil]

/-- The loop accepts the encodings, with the events of their characters. -/
theorem keyEventsFrom_ok {fuel codepointCount : Nat} {candidate text packet : Bytes}
    (hfuel : text.length ≤ fuel) (hcount : codepointCount ≤ maxTextInputCodepoints) :
    keyEventsFrom fuel codepointCount candidate text = .ok packet
      ↔ ∃ cs : List Char, text = utf8 cs
        ∧ codepointCount + cs.length ≤ maxTextInputCodepoints
        ∧ (∀ c ∈ cs, ¬ Unsupported c) ∧ packet = candidate ++ cs.flatMap typed := by
  induction fuel generalizing codepointCount candidate text with
  | zero =>
    rw [Nat.le_zero, List.length_eq_zero_iff] at hfuel
    subst hfuel
    exact keyEventsFrom_nil hcount
  | succ fuel ih =>
    cases text with
    | nil => exact keyEventsFrom_nil hcount
    | cons first text =>
      have hrest : ∀ (c : Char) rest,
          first :: text = String.utf8EncodeChar c ++ rest → rest.length ≤ fuel := by
        intro c rest htext
        have hlength := congrArg List.length htext
        have hpos := List.length_pos_iff.2 (Clipboard.utf8EncodeChar_ne_nil c)
        rw [List.length_append, List.length_cons] at hlength
        rw [List.length_cons] at hfuel
        omega
      constructor
      · intro h
        rw [keyEventsFrom] at h
        by_cases hmany : codepointCount + 1 > maxTextInputCodepoints
        · rw [if_pos hmany] at h
          cases h
        rw [if_neg hmany] at h
        rcases hread : decodeNextUtf8Codepoint (first :: text) with
          _ | ⟨codepoint, rest⟩
        · rw [hread] at h
          cases h
        rw [hread] at h
        obtain ⟨c, rfl, htext⟩ := decodeNextUtf8Codepoint_char.1 hread
        rcases hkeysym : codepointToKeysym c.toNat with _ | keysym
        · simp only [hkeysym] at h
          cases h
        simp only [hkeysym] at h
        obtain ⟨cs, rfl, hroom, hsupported, rfl⟩ :=
          (ih (hrest c rest htext) (Nat.le_of_not_gt hmany)).1 h
        refine ⟨c :: cs, htext, ?_, List.forall_mem_cons.2 ⟨?_, hsupported⟩, ?_⟩
        · rw [List.length_cons]
          omega
        · rw [← codepointToKeysym_none, hkeysym]
          exact fun hnone => Option.noConfusion rfl (heq_of_eq hnone)
        · rw [List.flatMap_cons, typed_of_keysym hkeysym]
          simp only [List.append_assoc]
      · rintro ⟨cs, htext, hroom, hsupported, rfl⟩
        cases cs with
        | nil => cases htext
        | cons c cs =>
          rw [utf8_cons] at htext
          rw [List.length_cons] at hroom
          obtain ⟨hc, hcs⟩ := List.forall_mem_cons.1 hsupported
          rcases hkeysym : codepointToKeysym c.toNat with _ | keysym
          · exact absurd ((codepointToKeysym_none c).1 hkeysym) hc
          rw [keyEventsFrom, if_neg (by omega),
            decodeNextUtf8Codepoint_char.2 ⟨c, rfl, htext⟩]
          simp only [hkeysym]
          refine (ih (hrest c _ htext) (by omega)).2
            ⟨cs, rfl, by omega, hcs, ?_⟩
          rw [List.flatMap_cons, typed_of_keysym hkeysym]
          simp only [List.append_assoc]

/-- A text is accepted exactly if it is UTF-8, of no more code points than the limit
and without a control character that has no key. The packet is then the keys of its
characters in their order, and it is empty else. -/
theorem buildTextKeyEvents_iff (text : Bytes) :
    ((buildTextKeyEvents text).2 = none ↔ ∃ cs : List Char, text = utf8 cs
        ∧ cs.length ≤ maxTextInputCodepoints ∧ ∀ c ∈ cs, ¬ Unsupported c)
      ∧ ((buildTextKeyEvents text).2 = none → ∀ cs : List Char, text = utf8 cs →
        (buildTextKeyEvents text).1 = cs.flatMap typed)
      ∧ ((buildTextKeyEvents text).2 ≠ none → (buildTextKeyEvents text).1 = []) := by
  have hloop : ∀ packet, keyEventsFrom text.length 0 [] text = .ok packet
      ↔ ∃ cs : List Char, text = utf8 cs ∧ 0 + cs.length ≤ maxTextInputCodepoints
        ∧ (∀ c ∈ cs, ¬ Unsupported c) ∧ packet = [] ++ cs.flatMap typed :=
    fun packet => keyEventsFrom_ok (Nat.le_refl _) (Nat.zero_le _)
  simp only [Nat.zero_add, List.nil_append] at hloop
  rw [buildTextKeyEvents]
  rcases hresult : keyEventsFrom text.length 0 [] text with error | packet
  · refine ⟨⟨fun h => (by cases h), ?_⟩, fun h => (by cases h), fun _ => rfl⟩
    rintro ⟨cs, htext, hroom, hsupported⟩
    have hok := (hloop _).2 ⟨cs, htext, hroom, hsupported, rfl⟩
    cases hresult.symm.trans hok
  · obtain ⟨cs, htext, hroom, hsupported, rfl⟩ := (hloop _).1 hresult
    refine ⟨⟨fun _ => ⟨cs, htext, hroom, hsupported⟩, fun _ => rfl⟩,
      fun _ cs' htext' => ?_, fun h => absurd rfl h⟩
    rw [Clipboard.utf8_inj (htext.symm.trans htext')]

/-- Keys of an accented letter, and of one that is not. -/
example : buildTextKeyEvents [0x41, 0xC3, 0xA9]
    = ([4, 1, 0, 0, 0, 0, 0, 0x41, 4, 0, 0, 0, 0, 0, 0, 0x41,
      4, 1, 0, 0, 0, 0, 0, 0xE9, 4, 0, 0, 0, 0, 0, 0, 0xE9], none) := by
  decide

end RemoteDesk.Vnc
