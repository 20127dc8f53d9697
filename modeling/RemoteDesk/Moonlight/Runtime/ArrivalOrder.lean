/-
Responses do not depend on how their bytes arrive.

The header is read alike in every beginning that has the marker, and what is
behind it is a beginning of the body (`inspect_take`). So a response that is
complete was never in error before, needs more until its last byte, and is
decoded to what it says, unless a line end is cut where a chunk line or the
trailers are as long as they may be (`arrival_independent`).
-/
import RemoteDesk.Moonlight.Runtime.ChunkedBody

namespace RemoteDesk.Moonlight.Runtime

open Lib

-- ================================== fields

/-- The values of the fields of a name, as lines give them. -/
def fieldsNamed (name : Bytes) (lines : List Bytes) : List Bytes :=
  (lines.filter fun line => lowerAscii (nameOf line) = name).map
    fun line => trimOws (valueOf line)

def lengthsOf (lines : List Bytes) : List Bytes :=
  (fieldsNamed (ascii "content-length") lines).flatMap pieces

def codingsOf (lines : List Bytes) : List Bytes :=
  ((fieldsNamed (ascii "transfer-encoding") lines).flatMap pieces).map
    fun piece => lowerAscii (trimOws piece)

/-- The lines between the status line and the marker. -/
def headerLines (wire : Bytes) : List Bytes :=
  match find marker wire with
  | none => []
  | some place => (linesOf ((wire.take place).length + 1)
      (wire.take place)).tail

/-- A length and a coding, lengths that disagree, or another coding than one
`chunked`. -/
def Ambiguous (wire : Bytes) : Prop :=
  (lengthsOf (headerLines wire) ≠ [] ∧ codingsOf (headerLines wire) ≠ [])
    ∨ (∃ value ∈ lengthsOf (headerLines wire),
      ∃ value' ∈ lengthsOf (headerLines wire),
        parseDecimal value ≠ parseDecimal value')
    ∨ (codingsOf (headerLines wire) ≠ []
      ∧ codingsOf (headerLines wire) ≠ [ascii "chunked"])

/-- Every piece is a number, and it is the length. -/
theorem mergePieces_some {values : List Bytes} {contentLength merged : Option Nat}
    (h : mergePieces values contentLength = some merged) :
    (∀ value ∈ values, parseDecimal value = merged ∧ merged ≠ none)
      ∧ ∀ length, contentLength = some length → merged = some length := by
  induction values generalizing contentLength with
  | nil =>
    obtain rfl := Option.some.inj h
    exact ⟨nofun, fun _ h => h⟩
  | cons value values ih =>
    rw [mergePieces] at h
    cases hparsed : parseDecimal value with
    | none =>
      rw [hparsed] at h
      cases h
    | some parsed =>
      rw [hparsed] at h
      dsimp only at h
      split at h
      · cases h
      · next hsame =>
          obtain ⟨hvalues, hfirst⟩ := ih h
          have hmerged := hfirst parsed rfl
          refine ⟨List.forall_mem_cons.mpr ⟨⟨?_, ?_⟩, hvalues⟩, ?_⟩
          · rw [hparsed, hmerged]
          · rw [hmerged]
            exact Option.some_ne_none parsed
          · rintro length rfl
            rw [Option.any_some, decide_eq_true_eq, not_not] at hsame
            rw [hmerged, hsame]

theorem appendPieces_some {values codings appended : List Bytes}
    (h : appendPieces values codings = some appended) :
    appended = codings
      ++ values.map fun piece => lowerAscii (trimOws piece) := by
  induction values generalizing codings with
  | nil =>
    rw [List.map_nil, List.append_nil]
    exact (Option.some.inj h).symm
  | cons value values ih =>
    rw [appendPieces] at h
    split at h
    · cases h
    · rw [ih h, List.map_cons, List.append_assoc, List.singleton_append]

theorem fieldsNamed_cons (name line : Bytes) (lines : List Bytes) :
    fieldsNamed name (line :: lines)
      = (if lowerAscii (nameOf line) = name then [trimOws (valueOf line)]
        else []) ++ fieldsNamed name lines := by
  rw [fieldsNamed, fieldsNamed, List.filter_cons]
  split
  · next h => rw [if_pos (of_decide_eq_true h), List.map_cons]; rfl
  · next h =>
      rw [if_neg (fun heq => h (decide_eq_true heq)), List.nil_append]

/-- What the loop over the fields makes of them. -/
theorem readFields_some {lines : List Bytes}
    {contentLength merged : Option Nat} {codings appended : List Bytes}
    (h : readFields lines contentLength codings = some (merged, appended)) :
    (∀ value ∈ lengthsOf lines, parseDecimal value = merged ∧ merged ≠ none)
      ∧ (∀ length, contentLength = some length → merged = some length)
      ∧ appended = codings ++ codingsOf lines := by
  induction lines generalizing contentLength codings with
  | nil =>
    rw [readFields, Option.some.injEq, Prod.mk.injEq] at h
    obtain ⟨rfl, rfl⟩ := h
    exact ⟨nofun, fun _ h => h, (List.append_nil _).symm⟩
  | cons line lines ih =>
    have hlengths : lengthsOf (line :: lines)
        = (if lowerAscii (nameOf line) = ascii "content-length" then
          pieces (trimOws (valueOf line)) else []) ++ lengthsOf lines := by
      rw [lengthsOf, fieldsNamed_cons, List.flatMap_append]
      split
      · rw [List.flatMap_singleton]
        rfl
      · rfl
    have hcodings : codingsOf (line :: lines)
        = (if lowerAscii (nameOf line) = ascii "transfer-encoding" then
          (pieces (trimOws (valueOf line))).map
            fun piece => lowerAscii (trimOws piece) else [])
          ++ codingsOf lines := by
      rw [codingsOf, fieldsNamed_cons, List.flatMap_append, List.map_append]
      split
      · rw [List.flatMap_singleton]
        rfl
      · rfl
    have hapart : ascii "content-length" ≠ ascii "transfer-encoding" := by
      decide
    rw [readFields] at h
    split at h
    · cases h
    · dsimp only at h
      rw [hlengths, hcodings]
      by_cases hlength : lowerAscii (nameOf line) = ascii "content-length"
      · rw [if_pos hlength] at h ⊢
        rw [if_neg (fun hcoding => hapart (hlength.symm.trans hcoding)),
          List.nil_append]
        cases hmerge : mergeContentLength (trimOws (valueOf line))
            contentLength with
        | none =>
          rw [hmerge] at h
          cases h
        | some merged' =>
          rw [hmerge] at h
          obtain ⟨hrest, hkept, happended⟩ := ih h
          obtain ⟨hvalues, hfirst⟩ := mergePieces_some hmerge
          refine ⟨fun value hvalue => ?_, fun length heq =>
            hkept length (hfirst length heq), happended⟩
          rcases List.mem_append.mp hvalue with hvalue | hvalue
          · obtain ⟨hparsed, hne⟩ := hvalues value hvalue
            obtain ⟨length, hmerged⟩ := Option.ne_none_iff_exists'.mp hne
            rw [hkept length hmerged, hparsed, hmerged]
            exact ⟨rfl, Option.some_ne_none length⟩
          · exact hrest value hvalue
      · rw [if_neg hlength] at h ⊢
        rw [List.nil_append]
        by_cases hcoding :
            lowerAscii (nameOf line) = ascii "transfer-encoding"
        · rw [if_pos hcoding] at h ⊢
          cases happend : appendTransferCodings (trimOws (valueOf line))
              codings with
          | none =>
            rw [happend] at h
            cases h
          | some appended' =>
            rw [happend] at h
            obtain ⟨hrest, hkept, happended⟩ := ih h
            refine ⟨hrest, hkept, ?_⟩
            rw [happended, appendPieces_some happend, List.append_assoc]
        · rw [if_neg hcoding] at h ⊢
          exact ih h

-- ================================= headers

/-- The header that ends at a place is read, and the body may come. -/
structure Read (wire : Bytes) (maxHeaderBytes maxBodyBytes place : Nat)
    (header : HeaderProjection) : Prop where
  found : find marker wire = some place
  limit : place + 4 ≤ maxHeaderBytes
  parsed : parseHead (wire.take place) (place + 4) maxBodyBytes = header
  complete : header.complete = true
  opened : header.state = .NeedMore

section Head

variable {head : Bytes} {bodyOffset maxBodyBytes : Nat}

/-- Where a header is complete, its fields agree. -/
theorem parseHead_complete
    (h : (parseHead head bodyOffset maxBodyBytes).complete = true) :
    ∃ contentLength codings,
      readFields (linesOf (head.length + 1) head).tail none []
        = some (contentLength, codings)
      ∧ ¬ (contentLength.isSome = true ∧ codings ≠ [])
      ∧ ¬ (codings ≠ [] ∧ codings ≠ [ascii "chunked"])
      ∧ (parseHead head bodyOffset maxBodyBytes).bodyOffset = bodyOffset
      ∧ ((parseHead head bodyOffset maxBodyBytes).mode = .ContentLength →
        (parseHead head bodyOffset maxBodyBytes).state = .NeedMore →
          (parseHead head bodyOffset maxBodyBytes).contentLength
            ≤ maxBodyBytes) := by
  rw [parseHead] at h ⊢
  dsimp only at h ⊢
  split at h
  · cases h
  · next hvalid =>
      rw [if_neg hvalid]
      cases hfields : readFields (linesOf (head.length + 1) head).tail none []
        with
      | none =>
        rw [hfields] at h
        cases h
      | some fields =>
        obtain ⟨contentLength, codings⟩ := fields
        rw [hfields] at h
        dsimp only at h ⊢
        split at h
        · cases h
        · next hboth =>
            rw [if_neg hboth]
            split at h
            · cases h
            · next hcoding =>
                rw [if_neg hcoding]
                refine ⟨contentLength, codings, rfl, ?_, ?_, rfl,
                  fun hmode hstate => ?_⟩
                · simpa using hboth
                · simpa using hcoding
                · dsimp only at hmode hstate ⊢
                  rw [if_pos hmode]
                  split at hstate
                  · cases hstate
                  · next hlarge =>
                      rw [not_and, not_lt] at hlarge
                      exact hlarge hmode

theorem parseHead_not_complete :
    (parseHead head bodyOffset maxBodyBytes).state ≠ .Complete := by
  rw [parseHead]
  dsimp only
  split
  · nofun
  · split
    · nofun
    · split
      · nofun
      · split
        · nofun
        · dsimp only
          split <;> nofun

end Head

section Response

variable {wire : Bytes} {maxHeaderBytes maxBodyBytes place : Nat}
  {header : HeaderProjection}

/-- A header alone is never a response. -/
theorem parseHeaders_not_complete {endOfStream : Bool} :
    (parseHeaders wire endOfStream maxHeaderBytes maxBodyBytes).state
      ≠ .Complete := by
  rw [parseHeaders]
  split
  · dsimp only
    split
    · nofun
    · split <;> nofun
  · split
    · nofun
    · exact parseHead_not_complete

theorem Read.bodyOffset
    (h : Read wire maxHeaderBytes maxBodyBytes place header) :
    header.bodyOffset = place + 4 := by
  have hcomplete := h.complete
  rw [← h.parsed] at hcomplete ⊢
  obtain ⟨-, -, -, -, -, hoffset, -⟩ := parseHead_complete hcomplete
  exact hoffset

theorem Read.contentLength_le
    (h : Read wire maxHeaderBytes maxBodyBytes place header)
    (hmode : header.mode = .ContentLength) :
    header.contentLength ≤ maxBodyBytes := by
  have hcomplete := h.complete
  have hopened := h.opened
  rw [← h.parsed] at hcomplete hopened hmode ⊢
  obtain ⟨-, -, -, -, -, -, hle⟩ := parseHead_complete hcomplete
  exact hle hmode hopened

theorem Read.unambiguous
    (h : Read wire maxHeaderBytes maxBodyBytes place header) :
    ¬ Ambiguous wire := by
  have hcomplete := h.complete
  rw [← h.parsed] at hcomplete
  obtain ⟨contentLength, codings, hfields, hboth, hcoding, -⟩ :=
    parseHead_complete hcomplete
  obtain ⟨hlengths, -, happended⟩ := readFields_some hfields
  have hlines : headerLines wire = (linesOf ((wire.take place).length + 1)
      (wire.take place)).tail := by
    rw [headerLines, h.found]
  rw [List.nil_append] at happended
  rw [Ambiguous, hlines]
  rintro (⟨hlength, hcodings⟩ | ⟨value, hvalue, value', hvalue', hne⟩
    | hother)
  · obtain ⟨value, hvalue⟩ := List.exists_mem_of_ne_nil _ hlength
    refine hboth ⟨?_, happended ▸ hcodings⟩
    exact Option.isSome_iff_ne_none.mpr (hlengths value hvalue).2
  · exact hne ((hlengths value hvalue).1.trans (hlengths value' hvalue').1.symm)
  · exact hcoding (happended ▸ hother)

/-- What is complete has a header. -/
theorem read_of_complete {endOfStream : Bool}
    (h : (inspectMoonlightHttpResponse wire endOfStream maxHeaderBytes
      maxBodyBytes).state = .Complete) :
    ∃ place, Read wire maxHeaderBytes maxBodyBytes place
      (parseHeaders wire endOfStream maxHeaderBytes maxBodyBytes) := by
  rw [inspectMoonlightHttpResponse] at h
  split at h
  · exact absurd h parseHeaders_not_complete
  · next haccepted =>
      have hcomplete : (parseHeaders wire endOfStream maxHeaderBytes
          maxBodyBytes).complete = true := by
        by_contra hnot
        rw [Bool.not_eq_true] at hnot
        rw [hnot] at haccepted
        exact haccepted rfl
      have hopened : (parseHeaders wire endOfStream maxHeaderBytes
          maxBodyBytes).state = .NeedMore := by
        by_contra hnot
        rw [decide_eq_true hnot, Bool.or_true] at haccepted
        exact haccepted rfl
      cases hfind : find marker wire with
      | none =>
        rw [parseHeaders, hfind] at hcomplete
        cases hcomplete
      | some place =>
        by_cases hlimit : place + 4 > maxHeaderBytes
        · rw [parseHeaders, hfind] at hcomplete
          dsimp only at hcomplete
          rw [if_pos hlimit] at hcomplete
          cases hcomplete
        · refine ⟨place, hfind, not_lt.mp hlimit, ?_, hcomplete, hopened⟩
          rw [parseHeaders, hfind]
          dsimp only
          rw [if_neg hlimit]

/-- A beginning without the marker needs more. -/
theorem Read.inspect_head
    (h : Read wire maxHeaderBytes maxBodyBytes place header)
    (endOfStream : Bool) {n : Nat} (hn : n < place + 4) :
    (inspectMoonlightHttpResponse (wire.take n) endOfStream maxHeaderBytes
      maxBodyBytes).state
      = if endOfStream then .ProtocolError else .NeedMore := by
  have hfind : find marker (wire.take n) = none := by
    rw [find_take (by nofun), h.found, Option.filter_some, if_neg]
    rw [decide_eq_true_eq, not_le]
    exact hn
  have hlimit := h.limit
  have htaken := List.length_take_le n wire
  rw [inspectMoonlightHttpResponse, parseHeaders, hfind]
  dsimp only
  rw [Bool.not_false, Bool.true_or, if_pos rfl, if_neg (by omega)]
  rfl

/-- A beginning with the marker is read as the whole is. -/
theorem Read.inspect_body
    (h : Read wire maxHeaderBytes maxBodyBytes place header)
    (endOfStream : Bool) {n : Nat} (hn : place + 4 ≤ n) :
    inspectMoonlightHttpResponse (wire.take n) endOfStream maxHeaderBytes
      maxBodyBytes
      = inspectBody header (wire.take n).length endOfStream maxHeaderBytes
        maxBodyBytes ((wire.drop (place + 4)).take (n - (place + 4))) := by
  have hfind : find marker (wire.take n) = some place := by
    rw [find_take (by nofun), h.found, Option.filter_some, if_pos]
    rw [decide_eq_true_eq]
    exact hn
  have hheader : parseHeaders (wire.take n) endOfStream maxHeaderBytes
      maxBodyBytes = header := by
    rw [parseHeaders, hfind]
    dsimp only
    rw [if_neg (not_lt.mpr h.limit), List.take_take,
      Nat.min_eq_left (by omega), h.parsed]
  rw [inspectMoonlightHttpResponse, hheader]
  rw [h.complete, h.opened, h.bodyOffset, if_neg (by decide), List.drop_take]

end Response

-- ============================ independence

/-- What the bytes behind the header say. -/
def ReferenceBody (header : HeaderProjection) (maxHeaderBytes maxBodyBytes : Nat)
    (rest body : Bytes) : Prop :=
  match header.mode with
  | .None => body = []
  | .ContentLength => body = rest.take header.contentLength
      ∧ body.length = header.contentLength
  | .Chunked => ∃ b : ChunkedBody, b.Within maxHeaderBytes maxBodyBytes 0 0
      ∧ rest = b.spell ∧ body = b.data
  | .UntilClose => body = rest

/-- A complete response was never in error, needed more until its last byte
and is what it says. -/
structure ArrivalIndependent (wire : Bytes)
    (maxHeaderBytes maxBodyBytes : Nat) : Prop where
  beginnings : ∀ endOfStream,
    (inspectMoonlightHttpResponse wire endOfStream maxHeaderBytes
      maxBodyBytes).state = .Complete →
    (parseHeaders wire endOfStream maxHeaderBytes maxBodyBytes).mode
      ≠ .UntilClose →
    ∀ n < wire.length,
      (inspectMoonlightHttpResponse (wire.take n) false maxHeaderBytes
        maxBodyBytes).state = .NeedMore
      ∧ (inspectMoonlightHttpResponse (wire.take n) true maxHeaderBytes
        maxBodyBytes).state = .ProtocolError
  decoded : ∀ endOfStream,
    (inspectMoonlightHttpResponse wire endOfStream maxHeaderBytes
      maxBodyBytes).state = .Complete →
    ReferenceBody (parseHeaders wire endOfStream maxHeaderBytes maxBodyBytes)
        maxHeaderBytes maxBodyBytes
        (wire.drop (parseHeaders wire endOfStream maxHeaderBytes
          maxBodyBytes).bodyOffset)
        (inspectMoonlightHttpResponse wire endOfStream maxHeaderBytes
          maxBodyBytes).body
      ∧ (inspectMoonlightHttpResponse wire endOfStream maxHeaderBytes
        maxBodyBytes).body.length ≤ maxBodyBytes
  monotone : ∀ endOfStream n,
    (inspectMoonlightHttpResponse (wire.take n) false maxHeaderBytes
      maxBodyBytes).state = .ProtocolError
    ∨ (inspectMoonlightHttpResponse (wire.take n) false maxHeaderBytes
      maxBodyBytes).state = .BodyTooLarge →
    (inspectMoonlightHttpResponse wire endOfStream maxHeaderBytes
      maxBodyBytes).state ≠ .Complete
  unambiguous : Ambiguous wire → ∀ endOfStream,
    (inspectMoonlightHttpResponse wire endOfStream maxHeaderBytes
      maxBodyBytes).state ≠ .Complete

/-- A chunked response in which a size line, or the trailers, are as long as
they may be. -/
def LimitCut (wire : Bytes) (maxHeaderBytes maxBodyBytes : Nat) : Prop :=
  ∃ place header, Read wire maxHeaderBytes maxBodyBytes place header
    ∧ header.mode = .Chunked
    ∧ ∃ b : ChunkedBody, b.Within maxHeaderBytes maxBodyBytes 0 0
      ∧ wire.drop (place + 4) = b.spell ∧ b.AtLimit maxHeaderBytes

section Response

variable {wire : Bytes} {maxHeaderBytes maxBodyBytes place : Nat}
  {header : HeaderProjection}

/-- The whole is one of its beginnings. -/
theorem Read.inspect_whole
    (h : Read wire maxHeaderBytes maxBodyBytes place header)
    (endOfStream : Bool) :
    inspectMoonlightHttpResponse wire endOfStream maxHeaderBytes maxBodyBytes
      = inspectBody header wire.length endOfStream maxHeaderBytes maxBodyBytes
        (wire.drop (place + 4)) := by
  have hle : place + 4 ≤ wire.length := (find_eq_some h.found).1
  have hbody := h.inspect_body endOfStream hle
  rwa [List.take_length, List.take_of_length_le (by rw [List.length_drop])]
    at hbody

/-- The bytes of a chunked body are complete, and say its data. -/
theorem inspectBody_spell {b : ChunkedBody} (hbody : maxBodyBytes < 2 ^ 63)
    (hmode : header.mode = .Chunked)
    (hb : b.Within maxHeaderBytes maxBodyBytes 0 0) (wireBytes : Nat)
    (endOfStream : Bool) :
    inspectBody header wireBytes endOfStream maxHeaderBytes maxBodyBytes
      b.spell
    = { resultFor .Complete true header.status with
        consumedBytes := wireBytes
        body := b.data } := by
  have hscan := @scanChunks_spell wireBytes endOfStream maxHeaderBytes
    maxBodyBytes 0 b 0 (b.spell.length + 1) hb hbody (length_chunks_lt b)
  have hdecoded : decodeChunked b.spell (0 + b.data.length) = b.data :=
    decodeChunks_spell hb (by simp) (length_chunks_lt b)
  rw [inspectBody, hmode]
  dsimp only
  rw [scanChunked, hscan]
  dsimp only
  rw [if_pos rfl, hdecoded]

/-- What is complete and chunked is a body within the limits. -/
theorem spelled_of_inspectBody {wireBytes : Nat} {endOfStream : Bool}
    {rest : Bytes} (hbody : maxBodyBytes < 2 ^ 63)
    (hmode : header.mode = .Chunked)
    (h : (inspectBody header wireBytes endOfStream maxHeaderBytes maxBodyBytes
      rest).state = .Complete) :
    ∃ b : ChunkedBody, b.Within maxHeaderBytes maxBodyBytes 0 0
      ∧ rest = b.spell := by
  rw [inspectBody, hmode] at h
  exact spelled_of_scan hbody (Nat.zero_le _) h

/-- What is complete says what is behind its header. -/
theorem Read.reference {endOfStream : Bool} (hbody : maxBodyBytes < 2 ^ 63)
    (h : Read wire maxHeaderBytes maxBodyBytes place header)
    (hcomplete : (inspectMoonlightHttpResponse wire endOfStream maxHeaderBytes
      maxBodyBytes).state = .Complete) :
    ReferenceBody header maxHeaderBytes maxBodyBytes (wire.drop (place + 4))
        (inspectMoonlightHttpResponse wire endOfStream maxHeaderBytes
          maxBodyBytes).body
      ∧ (inspectMoonlightHttpResponse wire endOfStream maxHeaderBytes
        maxBodyBytes).body.length ≤ maxBodyBytes := by
  rw [h.inspect_whole] at hcomplete ⊢
  cases hmode : header.mode with
  | None =>
    rw [inspectBody, hmode] at hcomplete ⊢
    rw [ReferenceBody, hmode]
    dsimp only at hcomplete ⊢
    split at hcomplete
    · cases hcomplete
    · next hempty =>
        rw [if_neg hempty]
        exact ⟨rfl, Nat.zero_le _⟩
  | ContentLength =>
    have hlength := h.contentLength_le hmode
    rw [inspectBody, hmode] at hcomplete ⊢
    rw [ReferenceBody, hmode]
    dsimp only at hcomplete ⊢
    split at hcomplete
    · cases hcomplete
    · next hmore =>
        split at hcomplete
        · cases endOfStream <;> cases hcomplete
        · next hless =>
            rw [if_neg hmore, if_neg hless]
            have htaken : ((wire.drop (place + 4)).take
                header.contentLength).length = header.contentLength := by
              rw [List.length_take]
              omega
            refine ⟨⟨rfl, htaken⟩, ?_⟩
            dsimp only
            rw [htaken]
            exact hlength
  | UntilClose =>
    rw [inspectBody, hmode] at hcomplete ⊢
    rw [ReferenceBody, hmode]
    dsimp only at hcomplete ⊢
    split at hcomplete
    · cases hcomplete
    · next hsmall =>
        split at hcomplete
        · cases hcomplete
        · next hclosed =>
            rw [if_neg hsmall, if_neg hclosed]
            exact ⟨rfl, not_lt.mp hsmall⟩
  | Chunked =>
    obtain ⟨b, hb, hspell⟩ := spelled_of_inspectBody hbody hmode hcomplete
    have hbounded := hb.bounded
    rw [Nat.zero_add] at hbounded
    rw [hspell, inspectBody_spell hbody hmode hb, ReferenceBody, hmode]
    exact ⟨⟨b, hb, rfl, rfl⟩, hbounded⟩

/-- A body that is complete needs more until its last byte. -/
theorem inspectBody_beginning {wireBytes : Nat} {endOfStream : Bool}
    {rest : Bytes} (hbody : maxBodyBytes < 2 ^ 63)
    (hmode : header.mode ≠ .UntilClose)
    (hlimit : header.mode = .Chunked → ∀ b : ChunkedBody,
      b.Within maxHeaderBytes maxBodyBytes 0 0 → rest = b.spell →
        ¬ b.AtLimit maxHeaderBytes)
    (h : (inspectBody header wireBytes endOfStream maxHeaderBytes maxBodyBytes
      rest).state = .Complete) {n : Nat} (hn : n < rest.length)
    (wireBytes' : Nat) (endOfStream' : Bool) :
    (inspectBody header wireBytes' endOfStream' maxHeaderBytes maxBodyBytes
      (rest.take n)).state
      = if endOfStream' then .ProtocolError else .NeedMore := by
  have htaken : (rest.take n).length = n := by
    rw [List.length_take]
    omega
  cases hcase : header.mode with
  | UntilClose => exact absurd hcase hmode
  | None =>
    rw [inspectBody, hcase] at h
    dsimp only at h
    rw [if_pos (by omega)] at h
    cases h
  | ContentLength =>
    rw [inspectBody, hcase] at h ⊢
    dsimp only at h ⊢
    split at h
    · cases h
    · next hmore =>
        split at h
        · cases endOfStream <;> cases h
        · next hless =>
            rw [htaken, if_neg (by omega), if_pos (by omega)]
            rfl
  | Chunked =>
    obtain ⟨b, hb, rfl⟩ := spelled_of_inspectBody hbody hcase h
    rw [inspectBody, hcase]
    dsimp only
    rw [scanChunked, htaken,
      scanChunks_beginning hb hbody (hlimit hcase b hb rfl) hn
        (Nat.lt_succ_self n)]
    rfl

/-- While the stream is open, no beginning of it is in error. -/
theorem inspectBody_open {wireBytes : Nat} {endOfStream : Bool}
    {rest : Bytes} (hbody : maxBodyBytes < 2 ^ 63)
    (hlimit : header.mode = .Chunked → ∀ b : ChunkedBody,
      b.Within maxHeaderBytes maxBodyBytes 0 0 → rest = b.spell →
        ¬ b.AtLimit maxHeaderBytes)
    (h : (inspectBody header wireBytes endOfStream maxHeaderBytes maxBodyBytes
      rest).state = .Complete) (n wireBytes' : Nat) :
    (inspectBody header wireBytes' false maxHeaderBytes maxBodyBytes
      (rest.take n)).state = .NeedMore
    ∨ (inspectBody header wireBytes' false maxHeaderBytes maxBodyBytes
      (rest.take n)).state = .Complete := by
  by_cases hmode : header.mode = .UntilClose
  · left
    have htaken := List.length_take_le' n rest
    rw [inspectBody, hmode] at h ⊢
    dsimp only at h ⊢
    split at h
    · cases h
    · rw [if_neg (by omega), Bool.not_false, if_pos rfl]
      rfl
  · rcases Nat.lt_or_ge n rest.length with hn | hn
    · left
      rw [inspectBody_beginning hbody hmode hlimit h hn]
      rfl
    · right
      rw [List.take_of_length_le hn]
      cases hcase : header.mode with
      | UntilClose => exact absurd hcase hmode
      | None =>
        rw [inspectBody, hcase] at h ⊢
        dsimp only at h ⊢
        split at h
        · cases h
        · next hempty =>
            rw [if_neg hempty]
            rfl
      | ContentLength =>
        rw [inspectBody, hcase] at h ⊢
        dsimp only at h ⊢
        split at h
        · cases h
        · next hmore =>
            split at h
            · cases endOfStream <;> cases h
            · next hless =>
                rw [if_neg hmore, if_neg hless]
                rfl
      | Chunked =>
        obtain ⟨b, hb, rfl⟩ := spelled_of_inspectBody hbody hcase h
        rw [inspectBody_spell hbody hcase hb]
        rfl

/-- Without a limit met, a response does not depend on its arrival. -/
theorem arrivalIndependent_of_not_limitCut (hbody : maxBodyBytes < 2 ^ 63)
    (hlimit : ¬ LimitCut wire maxHeaderBytes maxBodyBytes) :
    ArrivalIndependent wire maxHeaderBytes maxBodyBytes := by
  have hread : ∀ {place header},
      Read wire maxHeaderBytes maxBodyBytes place header →
      header.mode = .Chunked → ∀ b : ChunkedBody,
        b.Within maxHeaderBytes maxBodyBytes 0 0 →
        wire.drop (place + 4) = b.spell → ¬ b.AtLimit maxHeaderBytes :=
    fun h hmode b hb hspell hat =>
      hlimit ⟨_, _, h, hmode, b, hb, hspell, hat⟩
  refine ⟨fun endOfStream hcomplete hmode n hn => ?_,
    fun endOfStream hcomplete => ?_, fun endOfStream n hbad hcomplete => ?_,
    fun hambiguous endOfStream hcomplete => ?_⟩
  · obtain ⟨place, h⟩ := read_of_complete hcomplete
    have hstate : ∀ endOfStream', (inspectMoonlightHttpResponse (wire.take n)
        endOfStream' maxHeaderBytes maxBodyBytes).state
        = if endOfStream' then .ProtocolError else .NeedMore := by
      intro endOfStream'
      rcases Nat.lt_or_ge n (place + 4) with hcut | hcut
      · exact h.inspect_head endOfStream' hcut
      · rw [h.inspect_whole] at hcomplete
        rw [h.inspect_body endOfStream' hcut]
        refine inspectBody_beginning hbody hmode (hread h) hcomplete ?_ _ _
        rw [List.length_drop]
        omega
    exact ⟨hstate false, hstate true⟩
  · obtain ⟨place, h⟩ := read_of_complete hcomplete
    rw [h.bodyOffset]
    exact h.reference hbody hcomplete
  · obtain ⟨place, h⟩ := read_of_complete hcomplete
    have hgood : (inspectMoonlightHttpResponse (wire.take n) false
          maxHeaderBytes maxBodyBytes).state = .NeedMore
        ∨ (inspectMoonlightHttpResponse (wire.take n) false maxHeaderBytes
          maxBodyBytes).state = .Complete := by
      rcases Nat.lt_or_ge n (place + 4) with hcut | hcut
      · exact Or.inl (h.inspect_head false hcut)
      · rw [h.inspect_whole] at hcomplete
        rw [h.inspect_body false hcut]
        exact inspectBody_open hbody (hread h) hcomplete _ _
    rcases hgood with hgood | hgood <;> rw [hgood] at hbad <;>
      rcases hbad with hbad | hbad <;> cases hbad
  · obtain ⟨place, h⟩ := read_of_complete hcomplete
    exact h.unambiguous hambiguous

/-- Where a limit is met, a beginning is too large and the whole complete. -/
theorem not_arrivalIndependent_of_limitCut (hbody : maxBodyBytes < 2 ^ 63)
    (hlimit : LimitCut wire maxHeaderBytes maxBodyBytes) :
    ¬ ArrivalIndependent wire maxHeaderBytes maxBodyBytes := by
  obtain ⟨place, header, h, hmode, b, hb, hspell, hat⟩ := hlimit
  intro hindependent
  obtain ⟨n, hn, hscan⟩ :=
    @scanChunks_too_large false maxHeaderBytes maxBodyBytes 0 b 0 hb hbody hat
  have htaken : (b.spell.take n).length = n := by
    rw [List.length_take]
    omega
  refine hindependent.monotone false (place + 4 + n) (Or.inr ?_) ?_
  · rw [h.inspect_body false (Nat.le_add_right _ _), inspectBody, hmode]
    dsimp only
    rw [Nat.add_sub_cancel_left, hspell, scanChunked,
      hscan _ _ (by rw [htaken]; exact Nat.lt_succ_self n)]
    rfl
  · rw [h.inspect_whole, hspell, inspectBody_spell hbody hmode hb]
    rfl

end Response

/-- A chunked response with a trailer, which is as long as the header may
be. -/
def trailedResponse : Bytes :=
  ascii "HTTP/1.1 200\x0d\nTransfer-Encoding:chunked\x0d\n\x0d\n"
    ++ ascii "0\x0d\na:" ++ List.replicate 39 98 ++ marker

end RemoteDesk.Moonlight.Runtime
