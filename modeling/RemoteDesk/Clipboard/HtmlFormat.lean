/-
The HTML format of the RDP clipboard (rdp_clipboard_content.cpp): a
fragment wrapped in a document, behind a header of byte offsets in
decimal.

# What is modelled

`utf8`, `encodeHtml` and `decodeHtml`. `snprintf` writes at most 145 of
the 256 bytes of its buffer, so its text is the header as such. The
reader walks the lines of the header, takes the four offsets wherever
they stand, refuses a repeated or an oversized one, and checks that they
are nested.

# Results

An offset that fits the document is read back from its ten digits
(`readNumber_zu010`), the loop over the lines is followed line by line
(`headerLoop_line`), and so `decodeHtml` undoes `encodeHtml`
(`decodeHtml_encodeHtml`).
-/
import RemoteDesk.Clipboard.TextCodec

namespace RemoteDesk.Clipboard

open Lib

def kMaxRichBytes : Nat := 1024 * 1024

-- ==================================== utf8

/-- The loop of `utf8`, with fuel for the bytes of `value`. -/
def utf8Loop : Nat → List UInt8 → Bool
  | _, [] => true
  | 0, _ :: _ => false
  | fuel + 1, lead :: tail =>
    match takeUtf8 (lead :: tail) with
    | none => false
    | some (_, rest) => utf8Loop fuel rest

/-- `utf8`: a text within `limit` and without a NUL byte. -/
def isUtf8 (value : List UInt8) (limit : Nat) : Bool :=
  if limit < value.length ∨ 0 ∈ value then false
  else utf8Loop value.length value

variable {value key : List UInt8} {n size : Nat}

theorem utf8Loop_iff {fuel : Nat} (hfuel : value.length ≤ fuel) :
    utf8Loop fuel value = true ↔ ∃ cs, value = utf8 cs := by
  induction fuel generalizing value with
  | zero =>
    have hnil := List.eq_nil_of_length_eq_zero (Nat.le_zero.mp hfuel)
    rw [hnil]
    exact ⟨fun _ => ⟨[], rfl⟩, fun _ => rfl⟩
  | succ fuel ih =>
    cases value with
    | nil => exact ⟨fun _ => ⟨[], rfl⟩, fun _ => rfl⟩
    | cons lead tail =>
      rw [utf8Loop]
      cases htake : takeUtf8 (lead :: tail) with
      | none =>
        constructor
        · intro h
          cases h
        · intro ⟨cs, hcs⟩
          cases cs with
          | nil => cases hcs
          | cons c cs =>
            have hsome : takeUtf8 (lead :: tail)
                = some (c.toNat, utf8 cs) :=
              takeUtf8_eq_some.mpr ⟨c, rfl, hcs⟩
            rw [htake] at hsome
            cases hsome
      | some found =>
        obtain ⟨cp, rest⟩ := found
        obtain ⟨c, -, hbytes⟩ := takeUtf8_eq_some.mp htake
        have hpos := List.length_pos_of_ne_nil (utf8EncodeChar_ne_nil c)
        have hlen := congrArg List.length hbytes
        rw [List.length_append] at hlen
        have hrest := @ih rest (by omega)
        refine hrest.trans ?_
        constructor
        · intro ⟨cs, hcs⟩
          exact ⟨c :: cs, by rw [hbytes, hcs, utf8_cons]⟩
        · intro ⟨cs, hcs⟩
          cases cs with
          | nil => cases hcs
          | cons d cs =>
            have hsome : takeUtf8 (lead :: tail)
                = some (d.toNat, utf8 cs) :=
              takeUtf8_eq_some.mpr ⟨d, rfl, hcs⟩
            rw [htake] at hsome
            cases hsome
            exact ⟨cs, rfl⟩

theorem isUtf8_iff {limit : Nat} :
    isUtf8 value limit = true ↔
      value.length ≤ limit ∧ 0 ∉ value ∧ ∃ cs, value = utf8 cs := by
  unfold isUtf8
  split
  · rename_i hbad
    constructor
    · intro h
      cases h
    · intro h
      rcases hbad with hlong | hnul
      · exact absurd h.1 (not_le.mpr hlong)
      · exact absurd hnul h.2.1
  · rename_i hok
    rw [utf8Loop_iff (Nat.le_refl _)]
    rw [not_or, not_lt] at hok
    exact ⟨fun h => ⟨hok.1, hok.2, h⟩, fun h => h.2.2⟩

/-- Texts are closed under concatenation, as far as the limit goes. -/
theorem isUtf8_append {more : List UInt8} {m limit : Nat}
    (h : isUtf8 value m = true) (h' : isUtf8 more n = true)
    (hlimit : (value ++ more).length ≤ limit) :
    isUtf8 (value ++ more) limit = true := by
  obtain ⟨-, hnul, cs, hcs⟩ := isUtf8_iff.mp h
  obtain ⟨-, hnul', ds, hds⟩ := isUtf8_iff.mp h'
  refine isUtf8_iff.mpr ⟨hlimit, ?_, cs ++ ds, ?_⟩
  · rw [List.mem_append, not_or]
    exact ⟨hnul, hnul'⟩
  · rw [utf8_append, ← hcs, ← hds]

theorem isUtf8_ascii (h : ∀ b ∈ value, b ≠ 0 ∧ b.toNat < 128) :
    isUtf8 value value.length = true := by
  refine isUtf8_iff.mpr ⟨Nat.le_refl _, ?_, ?_⟩
  · intro h0
    exact (h 0 h0).1 rfl
  · exact exists_utf8_of_ascii fun b hb => (h b hb).2

/-- The bytes of an ASCII literal, seen as code points. -/
theorem ascii_plain {text : String}
    (h : text.toList.all (fun c => 0 < c.toNat && c.toNat < 128) = true) :
    ∀ b ∈ ascii text, b ≠ 0 ∧ b.toNat < 128 := by
  intro b hb
  obtain ⟨c, hc, rfl⟩ := List.mem_map.mp hb
  have hrange := List.all_eq_true.mp h c hc
  rw [Bool.and_eq_true, decide_eq_true_eq, decide_eq_true_eq] at hrange
  have hnat : (UInt8.ofNat c.toNat).toNat = c.toNat := by
    rw [UInt8.toNat_ofNat']
    omega
  rw [hnat]
  refine ⟨fun hzero => ?_, hrange.2⟩
  rw [hzero] at hnat
  have hpositive := hrange.1
  rw [← hnat] at hpositive
  exact absurd hpositive (by decide)

-- ============================== encodeHtml

/-- What `%010zu` writes: decimal, with zeros up to ten digits. -/
def zu010 (n : Nat) : List UInt8 :=
  (Nat.digitsAppend 10 10 n).reverse.map fun d => UInt8.ofNat (48 + d)

def crlf : List UInt8 := [13, 10]

/-- The header, as `pattern` lays it out. -/
def htmlHeader (start stop fs fe : Nat) : List UInt8 :=
  ascii "Version:1.0" ++ crlf
    ++ (ascii "StartHTML:" ++ zu010 start ++ crlf)
    ++ (ascii "EndHTML:" ++ zu010 stop ++ crlf)
    ++ (ascii "StartFragment:" ++ zu010 fs ++ crlf)
    ++ (ascii "EndFragment:" ++ zu010 fe ++ crlf)

def htmlBefore : List UInt8 := ascii "<html><body><!--StartFragment-->"

def htmlAfter : List UInt8 := ascii "<!--EndFragment--></body></html>"

def encodeHtml (fragment : List UInt8) : Option (List UInt8) :=
  if ¬ isUtf8 fragment kMaxRichBytes then none
  else
    let start := (htmlHeader 0 0 0 0).length
    let stop := start + htmlBefore.length + fragment.length
      + htmlAfter.length
    if kMaxRichBytes < stop + 1 then none
    else
      let header := htmlHeader start stop (start + htmlBefore.length)
        (start + htmlBefore.length + fragment.length)
      some (header ++ htmlBefore ++ fragment ++ htmlAfter ++ [0])

-- ============================== decodeHtml

/-- The offsets found so far; `none` is a field not seen. -/
structure HtmlOffsets where
  start : Option Nat := none
  stop : Option Nat := none
  fs : Option Nat := none
  fe : Option Nat := none
deriving DecidableEq, Repr

/-- The digits of a field. `size` is above nine here, so its difference
with a digit does not wrap. -/
def readNumber (size : Nat) : List UInt8 → Nat → Option Nat
  | [], number => some number
  | c :: rest, number =>
    if c.toNat < 48 ∨ 57 < c.toNat
        ∨ (size - (c.toNat - 48)) / 10 < number then none
    else readNumber size rest (number * 10 + (c.toNat - 48))

/-- The lambda `field` on one line. -/
def field (key line : List UInt8) (size : Nat) (found : Option Nat) :
    Option (Option Nat) :=
  if ¬ key.isPrefixOf line then some found
  else if found.isSome ∨ line.length = key.length then none
  else
    match readNumber size (line.drop key.length) 0 with
    | none => none
    | some number => if number ≤ size then some (some number) else none

def HtmlOffsets.line (h : HtmlOffsets) (size : Nat) (line : List UInt8) :
    Option HtmlOffsets := do
  let start ← field (ascii "StartHTML:") line size h.start
  let stop ← field (ascii "EndHTML:") line size h.stop
  let fs ← field (ascii "StartFragment:") line size h.fs
  let fe ← field (ascii "EndFragment:") line size h.fe
  return ⟨start, stop, fs, fe⟩

def HtmlOffsets.all (h : HtmlOffsets) : Bool :=
  h.start.isSome && h.stop.isSome && h.fs.isSome && h.fe.isSome

/-- The text up to the next newline, and what follows it. -/
def takeLine : List UInt8 → Option (List UInt8 × List UInt8)
  | [] => none
  | c :: rest =>
    if c = 10 then some ([], rest)
    else
      match takeLine rest with
      | none => none
      | some (line, rest) => some (c :: line, rest)

/-- `line` without its carriage return. -/
def chomp (line : List UInt8) : List UInt8 :=
  if line.getLast? = some 13 then line.dropLast else line

/-- The loop over the header lines: `pos` is `at`, `rest` the text from
there. Each turn moves `pos`, which `size` bounds, so the fuel is not
reached. -/
def headerLoop (size : Nat) :
    Nat → Nat → List UInt8 → HtmlOffsets → Option (Nat × HtmlOffsets)
  | 0, pos, _, h => some (pos, h)
  | fuel + 1, pos, rest, h =>
    if pos < size ∧ pos < 4096 then
      match takeLine rest with
      | none => none
      | some (line, rest) =>
        match h.line size (chomp line) with
        | none => none
        | some h =>
          let pos := pos + line.length + 1
          if h.all then some (pos, h)
          else headerLoop size fuel pos rest h
    else some (pos, h)

def decodeHtml (data : List UInt8) : Option (List UInt8) :=
  if data = [] ∨ kMaxRichBytes < data.length then none
  else
    let value := if data.getLast? = some 0 then data.dropLast else data
    let size := value.length
    if ¬ isUtf8 value kMaxRichBytes
        ∨ ¬ (ascii "Version:").isPrefixOf value then none
    else
      match headerLoop size (size + 1) 0 value {} with
      | some (pos, ⟨some start, some stop, some fs, some fe⟩) =>
        if start < pos ∨ fs < start ∨ fe < fs ∨ stop < fe ∨ size < stop
          then none
        else
          let result := (value.drop fs).take (fe - fs)
          if isUtf8 result kMaxRichBytes then some result else none
      | _ => none

-- ================================= numbers

/-- The number a list of decimal digits spells, first digit first. -/
def decimalValue (ds : List Nat) (acc : Nat) : Nat :=
  ds.foldl (fun n d => n * 10 + d) acc

theorem decimalValue_reverse (ds : List Nat) :
    decimalValue ds.reverse 0 = Nat.ofDigits 10 ds := by
  rw [decimalValue, List.foldl_reverse, Nat.ofDigits_eq_foldr]
  congr 1
  funext d n
  show n * 10 + d = d + 10 * n
  omega

theorem le_decimalValue (ds : List Nat) (acc : Nat) :
    acc ≤ decimalValue ds acc := by
  induction ds generalizing acc with
  | nil => exact Nat.le_refl _
  | cons d ds ih =>
    have h := ih (acc * 10 + d)
    change acc ≤ decimalValue ds (acc * 10 + d)
    omega

/-- The reader follows digits whose number fits. -/
theorem readNumber_digits {ds : List Nat} (hds : ∀ d ∈ ds, d < 10) {acc : Nat}
    (hsize : decimalValue ds acc ≤ size) :
    readNumber size (ds.map fun d => UInt8.ofNat (48 + d)) acc
      = some (decimalValue ds acc) := by
  induction ds generalizing acc with
  | nil => rfl
  | cons d ds ih =>
    obtain ⟨hd, hrest⟩ := List.forall_mem_cons.mp hds
    have hle := le_decimalValue ds (acc * 10 + d)
    have hnat : (UInt8.ofNat (48 + d)).toNat = 48 + d := by
      rw [UInt8.toNat_ofNat']
      omega
    have hsub : 48 + d - 48 = d := by omega
    change decimalValue ds (acc * 10 + d) ≤ size at hsize
    rw [List.map_cons, readNumber, hnat, hsub, if_neg (by omega),
      ih hrest hsize]
    rfl

/-- Ten digits give the number back. -/
theorem readNumber_zu010 (h : n ≤ size) :
    readNumber size (zu010 n) 0 = some n := by
  have hvalue : decimalValue (Nat.digitsAppend 10 10 n).reverse 0 = n := by
    rw [decimalValue_reverse, Nat.digitsAppend,
      Nat.ofDigits_append_replicate_zero, Nat.ofDigits_digits]
  unfold zu010
  rw [readNumber_digits, hvalue]
  · intro d hd
    exact Nat.lt_of_mem_digitsAppend (by norm_num) 10 d
      (List.mem_reverse.mp hd)
  · rwa [hvalue]

theorem length_zu010 (h : n < 10 ^ 10) : (zu010 n).length = 10 := by
  rw [zu010, List.length_map, List.length_reverse,
    Nat.length_digitsAppend (by norm_num) 10 h]

/-- A digit is an ASCII byte of its own range. -/
theorem mem_zu010 {b : UInt8} (h : b ∈ zu010 n) :
    48 ≤ b.toNat ∧ b.toNat ≤ 57 := by
  obtain ⟨d, hd, rfl⟩ := List.mem_map.mp h
  have hlt := Nat.lt_of_mem_digitsAppend (by norm_num) 10 d
    (List.mem_reverse.mp hd)
  rw [UInt8.toNat_ofNat']
  omega

-- ============================== the header

theorem takeLine_append {line : List UInt8} (h : 10 ∉ line)
    (rest : List UInt8) :
    takeLine (line ++ 10 :: rest) = some (line, rest) := by
  induction line with
  | nil => rfl
  | cons c line ih =>
    rw [List.mem_cons, not_or] at h
    rw [List.cons_append, takeLine, if_neg (Ne.symm h.1), ih h.2]

theorem chomp_append (line : List UInt8) : chomp (line ++ [13]) = line := by
  rw [chomp, List.getLast?_concat, if_pos rfl, List.dropLast_concat]

/-- One turn of the loop, on a line of the header. -/
theorem headerLoop_line {fuel pos : Nat} {line rest : List UInt8}
    {h : HtmlOffsets} (hline : 10 ∉ line) (hsize : pos < size)
    (hhead : pos < 4096) :
    headerLoop size (fuel + 1) pos (line ++ crlf ++ rest) h
      = (h.line size line).bind fun h =>
          if h.all then some (pos + (line.length + 2), h)
          else headerLoop size fuel (pos + (line.length + 2)) rest h := by
  have htake : takeLine (line ++ crlf ++ rest)
      = some (line ++ [13], rest) := by
    rw [show line ++ crlf ++ rest = line ++ [13] ++ 10 :: rest by
      simp [crlf]]
    apply takeLine_append
    simp [hline]
  rw [headerLoop, if_pos ⟨hsize, hhead⟩, htake]
  dsimp only
  rw [chomp_append, List.length_append]
  cases h.line size line <;> rfl

theorem field_other {line : List UInt8} {found : Option Nat}
    (h : key.isPrefixOf line = false) :
    field key line size found = some found := by
  rw [field, if_pos]
  simp [h]

theorem field_own (h : n ≤ size) (hn : n < 10 ^ 10) :
    field key (key ++ zu010 n) size none = some (some n) := by
  have hkey : key.isPrefixOf (key ++ zu010 n) = true := by
    rw [List.isPrefixOf_iff_prefix]
    exact List.prefix_append _ _
  have hlen := length_zu010 hn
  rw [field, if_neg (by simp [hkey]), if_neg, List.drop_left,
    readNumber_zu010 h]
  · exact if_pos h
  · rw [List.length_append]
    simp only [Option.isSome_none, Bool.false_eq_true, false_or]
    omega

section Lines

variable {h : HtmlOffsets}

theorem line_version :
    h.line size (ascii "Version:1.0") = some h := by
  unfold HtmlOffsets.line
  rw [field_other rfl, field_other rfl, field_other rfl, field_other rfl]
  rfl

variable (hsize : n ≤ size) (hten : n < 10 ^ 10)
include hsize hten

theorem line_start (hnone : h.start = none) :
    h.line size (ascii "StartHTML:" ++ zu010 n)
      = some { h with start := some n } := by
  unfold HtmlOffsets.line
  rw [hnone, field_own hsize hten, field_other rfl, field_other rfl,
    field_other rfl]
  rfl

theorem line_stop (hnone : h.stop = none) :
    h.line size (ascii "EndHTML:" ++ zu010 n)
      = some { h with stop := some n } := by
  unfold HtmlOffsets.line
  rw [hnone, field_own hsize hten, field_other rfl, field_other rfl,
    field_other rfl]
  rfl

theorem line_fs (hnone : h.fs = none) :
    h.line size (ascii "StartFragment:" ++ zu010 n)
      = some { h with fs := some n } := by
  unfold HtmlOffsets.line
  rw [hnone, field_own hsize hten, field_other rfl, field_other rfl,
    field_other rfl]
  rfl

theorem line_fe (hnone : h.fe = none) :
    h.line size (ascii "EndFragment:" ++ zu010 n)
      = some { h with fe := some n } := by
  unfold HtmlOffsets.line
  rw [hnone, field_own hsize hten, field_other rfl, field_other rfl,
    field_other rfl]
  rfl

end Lines

/-- A key without a newline makes a line without one. -/
theorem newline_not_mem (h : 10 ∉ key) : 10 ∉ key ++ zu010 n := by
  rw [List.mem_append, not_or]
  refine ⟨h, fun hmem => ?_⟩
  have hrange := (mem_zu010 hmem).1
  exact absurd hrange (by decide)

theorem length_htmlHeader {s e f g : Nat} (hs : s < 10 ^ 10)
    (he : e < 10 ^ 10) (hf : f < 10 ^ 10) (hg : g < 10 ^ 10) :
    (htmlHeader s e f g).length = 105 := by
  unfold htmlHeader
  simp only [List.length_append, length_zu010 hs, length_zu010 he,
    length_zu010 hf, length_zu010 hg]
  rfl

/-- The loop reads the offsets of the header, and stops behind it. -/
theorem headerLoop_header {fuel s e f g : Nat} {body : List UInt8}
    (hfuel : 5 ≤ fuel) (hhead : 105 ≤ size) (hs : s ≤ size) (he : e ≤ size)
    (hf : f ≤ size) (hg : g ≤ size) (hten : size < 10 ^ 10) :
    headerLoop size fuel 0 (htmlHeader s e f g ++ body) {}
      = some (105, ⟨some s, some e, some f, some g⟩) := by
  obtain ⟨fuel, rfl⟩ : ∃ n, fuel = n + 5 := ⟨fuel - 5, by omega⟩
  have hlen : ∀ {key : List UInt8} {n : Nat}, n ≤ size →
      (key ++ zu010 n).length = key.length + 10 := by
    intro key n hn
    rw [List.length_append, length_zu010 (by omega)]
  have hsplit : htmlHeader s e f g ++ body
      = ascii "Version:1.0" ++ crlf
        ++ ((ascii "StartHTML:" ++ zu010 s) ++ crlf
        ++ ((ascii "EndHTML:" ++ zu010 e) ++ crlf
        ++ ((ascii "StartFragment:" ++ zu010 f) ++ crlf
        ++ ((ascii "EndFragment:" ++ zu010 g) ++ crlf ++ body)))) := by
    unfold htmlHeader
    simp only [List.append_assoc]
  rw [hsplit, headerLoop_line (by decide) (by omega) (by omega),
    line_version, Option.bind_some, if_neg (by decide)]
  have h11 : (ascii "Version:1.0").length = 11 := rfl
  have h10 : (ascii "StartHTML:").length = 10 := rfl
  have h8 : (ascii "EndHTML:").length = 8 := rfl
  have h14 : (ascii "StartFragment:").length = 14 := rfl
  have h12 : (ascii "EndFragment:").length = 12 := rfl
  rw [h11, headerLoop_line (newline_not_mem (by decide)) (by omega)
      (by omega), line_start hs (by omega) rfl, Option.bind_some,
    if_neg (by simp [HtmlOffsets.all]), hlen hs, h10,
    headerLoop_line (newline_not_mem (by decide)) (by omega) (by omega),
    line_stop he (by omega) rfl, Option.bind_some,
    if_neg (by simp [HtmlOffsets.all]), hlen he, h8,
    headerLoop_line (newline_not_mem (by decide)) (by omega) (by omega),
    line_fs hf (by omega) rfl, Option.bind_some,
    if_neg (by simp [HtmlOffsets.all]), hlen hf, h14,
    headerLoop_line (newline_not_mem (by decide)) (by omega) (by omega),
    line_fe hg (by omega) rfl, Option.bind_some,
    if_pos (by simp [HtmlOffsets.all]), hlen hg, h12]

/-- Every byte the writer adds to the fragment is ASCII and not NUL. -/
theorem isUtf8_htmlHeader {s e f g : Nat} :
    isUtf8 (htmlHeader s e f g) (htmlHeader s e f g).length = true := by
  apply isUtf8_ascii
  have hdigits : ∀ {n : Nat}, ∀ b ∈ zu010 n, b ≠ 0 ∧ b.toNat < 128 := by
    intro n b hb
    have hrange := mem_zu010 hb
    refine ⟨fun h0 => ?_, by omega⟩
    rw [h0] at hrange
    exact absurd hrange.1 (by decide)
  unfold htmlHeader
  simp only [List.forall_mem_append]
  have hcrlf : ∀ b ∈ crlf, b ≠ 0 ∧ b.toNat < 128 := by decide +kernel
  refine ⟨⟨⟨⟨⟨?_, hcrlf⟩, ⟨?_, hdigits⟩, hcrlf⟩, ⟨?_, hdigits⟩, hcrlf⟩,
    ⟨?_, hdigits⟩, hcrlf⟩, ⟨?_, hdigits⟩, hcrlf⟩ <;>
    exact ascii_plain (by decide +kernel)

/-- What the reader does with a document whose offsets are in order. -/
theorem decodeHtml_document {s e f g : Nat} {body fragment : List UInt8}
    (hvalid : isUtf8 (htmlHeader s e f g ++ body) kMaxRichBytes = true)
    (hsize : (htmlHeader s e f g ++ body).length < kMaxRichBytes)
    (hs : s = 105) (hsf : s ≤ f) (hfg : f ≤ g) (hge : g ≤ e)
    (he : e ≤ (htmlHeader s e f g ++ body).length)
    (hfragment : ((htmlHeader s e f g ++ body).drop f).take (g - f)
      = fragment)
    (htext : isUtf8 fragment kMaxRichBytes = true) :
    decodeHtml (htmlHeader s e f g ++ body ++ [0]) = some fragment := by
  have hmax : kMaxRichBytes = 1048576 := by decide
  have hversion : (ascii "Version:").isPrefixOf
      (htmlHeader s e f g ++ body) = true := rfl
  have hloop := @headerLoop_header
    (htmlHeader s e f g ++ body).length
    ((htmlHeader s e f g ++ body).length + 1) s e f g body (by omega) (by omega) (by omega) he (by omega) (by omega) (by omega)
  generalize hvalue : htmlHeader s e f g ++ body = value at *
  unfold decodeHtml
  rw [if_neg, List.getLast?_concat, if_pos rfl, List.dropLast_concat]
  · dsimp only
    rw [if_neg (by simp [hvalid, hversion]), hloop]
    dsimp only
    rw [if_neg (by omega), hfragment, if_pos htext]
  · rw [not_or, List.length_append]
    refine ⟨by simp, ?_⟩
    change ¬ kMaxRichBytes < value.length + 1
    omega

theorem decodeHtml_encodeHtml {fragment bytes : List UInt8}
    (h : encodeHtml fragment = some bytes) :
    decodeHtml bytes = some fragment := by
  have h0 : (0 : Nat) < 10 ^ 10 := by norm_num
  have hbefore : htmlBefore.length = 32 := rfl
  have hafter : htmlAfter.length = 32 := rfl
  have hmax : kMaxRichBytes = 1048576 := by decide
  unfold encodeHtml at h
  split at h
  · cases h
  · rename_i htext
    rw [not_not] at htext
    dsimp only at h
    split at h
    · cases h
    · rename_i hfits
      rw [length_htmlHeader h0 h0 h0 h0] at h hfits
      have hbytes := Option.some.inj h
      generalize hfs : 105 + htmlBefore.length = f at hbytes hfits
      generalize hfe : f + fragment.length = g at hbytes hfits
      generalize hstop : g + htmlAfter.length = e at hbytes hfits
      have hhead := length_htmlHeader (s := 105) (e := e) (f := f) (g := g)
        (by omega) (by omega) (by omega) (by omega)
      have hbody : bytes = htmlHeader 105 e f g
          ++ (htmlBefore ++ (fragment ++ htmlAfter)) ++ [0] := by
        rw [← hbytes]
        simp only [List.append_assoc]
      have hlen : (htmlHeader 105 e f g
          ++ (htmlBefore ++ (fragment ++ htmlAfter))).length = e := by
        simp only [List.length_append, hhead]
        omega
      have hpieces : isUtf8 (htmlBefore ++ (fragment ++ htmlAfter))
          kMaxRichBytes = true := by
        have hb : isUtf8 htmlBefore htmlBefore.length = true :=
          isUtf8_ascii (ascii_plain (by decide +kernel))
        have ha : isUtf8 htmlAfter htmlAfter.length = true :=
          isUtf8_ascii (ascii_plain (by decide +kernel))
        have hfa : (fragment ++ htmlAfter).length ≤ kMaxRichBytes := by
          rw [List.length_append]
          omega
        apply isUtf8_append hb (isUtf8_append htext ha hfa)
        simp only [List.length_append]
        omega
      rw [hbody]
      apply decodeHtml_document
      · exact isUtf8_append isUtf8_htmlHeader hpieces (by omega)
      · omega
      · rfl
      · omega
      · omega
      · omega
      · omega
      · have hfront : (htmlHeader 105 e f g ++ htmlBefore).length = f := by
          rw [List.length_append, hhead]
          exact hfs
        have hcount : g - f = fragment.length := by omega
        rw [← List.append_assoc, List.drop_left' hfront, hcount,
          List.take_left]
      · exact htext

end RemoteDesk.Clipboard
