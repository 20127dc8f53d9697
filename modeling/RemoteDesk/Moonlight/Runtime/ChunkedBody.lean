/-
Chunked bodies, and how they are scanned.

A `ChunkedBody` is what the bytes of one mean: chunks with their lines, the
last line and the trailers. The scan is complete on exactly the bytes of a
body within the limits (`scan_spell`, `spelled_of_scan`), and what is decoded
is the data of its chunks. On a beginning of them it needs more, unless a
line or the trailers are as long as they may be (`AtLimit`): the carriage
return in front of the cut counts as one byte too many.
-/
import RemoteDesk.Moonlight.Runtime.ResponseFraming

namespace RemoteDesk.Moonlight.Runtime

open Lib

-- ================================== bodies

structure Chunk where
  line : Bytes
  data : Bytes
deriving DecidableEq, Repr

def Chunk.spell (c : Chunk) : Bytes := c.line ++ crlf ++ (c.data ++ crlf)

structure ChunkedBody where
  chunks : List Chunk
  last : Bytes
  trailers : List Bytes
deriving DecidableEq, Repr

def trailerBytes (trailers : List Bytes) : Bytes :=
  trailers.flatMap (· ++ crlf)

namespace ChunkedBody

def spell (b : ChunkedBody) : Bytes :=
  b.chunks.flatMap Chunk.spell
    ++ (b.last ++ crlf ++ (trailerBytes b.trailers ++ crlf))

/-- What the body says. -/
def data (b : ChunkedBody) : Bytes := b.chunks.flatMap Chunk.data

/-- The bytes of its lines, line ends included. -/
def framing (b : ChunkedBody) : Nat :=
  (b.chunks.map fun c => c.line.length + 4).sum + (b.last.length + 2)

end ChunkedBody

/-- A line of its own that gives a size. -/
structure SizeLine (line : Bytes) (size : Nat) : Prop where
  ends : Line crlf line
  nonempty : line ≠ []
  short : line.length ≤ kMaximumChunkLineBytes
  gives : chunkSize line = some size

structure TrailerLine (trailer : Bytes) : Prop where
  ends : Line crlf trailer
  nonempty : trailer ≠ []
  valid : validTrailer trailer = true

/-- A body within the limits, where so much framing and so much data came
before. -/
structure ChunkedBody.Within (b : ChunkedBody)
    (maxHeaderBytes maxBodyBytes decoded framing : Nat) : Prop where
  chunks : ∀ c ∈ b.chunks, SizeLine c.line c.data.length ∧ c.data ≠ []
  last : SizeLine b.last 0
  trailers : ∀ trailer ∈ b.trailers, TrailerLine trailer
  trailing : (trailerBytes b.trailers).length ≤ maxHeaderBytes
  framed : framing + b.framing ≤ maxHeaderBytes
  bounded : decoded + b.data.length ≤ maxBodyBytes

/-- A line is as long as a line may be, or the trailers are. -/
def ChunkedBody.AtLimit (b : ChunkedBody) (maxHeaderBytes : Nat) : Prop :=
  (∃ c ∈ b.chunks, c.line.length = kMaximumChunkLineBytes)
    ∨ b.last.length = kMaximumChunkLineBytes
    ∨ (trailerBytes b.trailers).length = maxHeaderBytes

instance (b : ChunkedBody) (maxHeaderBytes : Nat) :
    Decidable (b.AtLimit maxHeaderBytes) := inferInstanceAs (Decidable (_ ∨ _))

theorem crlf_ne_nil : crlf ≠ [] := List.cons_ne_nil _ _

@[simp] theorem length_crlf : crlf.length = 2 := rfl

theorem find_crlf_line {line : Bytes} (hline : Line crlf line) (rest : Bytes) :
    find crlf (line ++ crlf ++ rest) = some line.length :=
  find_line crlf_ne_nil hline rest

variable {rest : Bytes} {framing rounds : Nat}

/-- What is cut inside of a line has no line end. -/
theorem find_crlf_cut {line : Bytes} (hline : Line crlf line) {n : Nat}
    (hn : n < line.length + 2) :
    find crlf ((line ++ crlf ++ rest).take n) = none :=
  find_line_take crlf_ne_nil hline hn

theorem take_line (line rest : Bytes) :
    (line ++ crlf ++ rest).take line.length = line := by
  rw [List.append_assoc, List.take_left']
  rfl

theorem drop_line (line rest : Bytes) :
    (line ++ crlf ++ rest).drop (line.length + 2) = rest :=
  List.drop_left' (by simp)

/-- A cut behind a line. -/
theorem take_past (line rest : Bytes) (n : Nat) :
    (line ++ crlf ++ rest).take (line.length + 2 + n)
      = line ++ crlf ++ rest.take n := by
  have hfirst : (line ++ crlf).length = line.length + 2 := by
    rw [List.length_append, length_crlf]
  rw [← hfirst, List.take_length_add_append]

/-- A list behind the place of its first line end. -/
theorem split_crlf {k : Nat} (h : find crlf rest = some k) :
    Line crlf (rest.take k) ∧ (rest.take k).length = k
      ∧ rest = rest.take k ++ crlf ++ rest.drop (k + 2) := by
  obtain ⟨hle, hsplit⟩ := find_eq_some h
  refine ⟨line_of_find crlf_ne_nil h, ?_, hsplit⟩
  rw [List.length_take]
  omega

-- ================================ trailers

section Scan

variable {wireBytes : Nat} {endOfStream : Bool}
  {maxHeaderBytes maxBodyBytes decoded : Nat}

/-- Trailers that are all there, or cut. -/
theorem scanTrailers_take {trailers : List Bytes}
    (hvalid : ∀ trailer ∈ trailers, TrailerLine trailer) {used n rounds : Nat}
    (hlimit : used + (trailerBytes trailers).length ≤ maxHeaderBytes)
    (hn : n ≤ (trailerBytes trailers ++ crlf).length) (hrounds : n < rounds) :
    scanTrailers wireBytes endOfStream maxHeaderBytes decoded rounds
      ((trailerBytes trailers ++ crlf).take n) used
    = if n = (trailerBytes trailers ++ crlf).length then
        { state := .Complete, consumedBytes := wireBytes
          decodedBytes := decoded }
      else if used + (trailerBytes trailers).length = maxHeaderBytes
          ∧ n + 1 = (trailerBytes trailers ++ crlf).length then
        { state := .BodyTooLarge }
      else unfinished endOfStream := by
  induction trailers generalizing used n rounds with
  | nil =>
    obtain ⟨rounds, rfl⟩ := Nat.exists_eq_succ_of_ne_zero hrounds.ne_bot
    have hline : Line crlf [] := by decide
    rw [trailerBytes, List.flatMap_nil, List.nil_append] at *
    rw [List.length_nil, Nat.add_zero] at hlimit
    rw [scanTrailers]
    by_cases hfull : n = crlf.length
    · rw [if_pos hfull, hfull, List.take_length]
      have hfind : find crlf crlf = some 0 := by decide
      rw [hfind]
      dsimp only
      rw [if_neg (by omega), if_pos rfl]
      rfl
    · have hlt : n < 0 + 2 := by
        rw [length_crlf] at hn hfull
        omega
      have hfind : find crlf (crlf.take n) = none := by
        have hcut : find crlf (([] ++ crlf ++ []).take n) = none :=
          find_crlf_cut hline hlt
        rwa [List.nil_append, List.append_nil] at hcut
      rw [if_neg hfull, hfind]
      have hlength : (crlf.take n).length = n := by
        rw [List.length_take, length_crlf]
        omega
      rw [hlength]
      dsimp only
      refine if_congr ?_ rfl rfl
      rw [List.length_nil, length_crlf]
      omega
  | cons trailer trailers ih =>
    obtain ⟨rounds, rfl⟩ := Nat.exists_eq_succ_of_ne_zero hrounds.ne_bot
    obtain ⟨hline, hnonempty, htrailer⟩ := hvalid trailer List.mem_cons_self
    have hspell : trailerBytes (trailer :: trailers) ++ crlf
        = trailer ++ crlf ++ (trailerBytes trailers ++ crlf) := by
      rw [trailerBytes, List.flatMap_cons, List.append_assoc]
      rfl
    have hlength : (trailerBytes (trailer :: trailers)).length
        = trailer.length + 2 + (trailerBytes trailers).length := by
      rw [trailerBytes, List.flatMap_cons, List.length_append,
        List.length_append, length_crlf]
      rfl
    rw [hspell] at hn ⊢
    rw [hlength] at hlimit ⊢
    have hwhole : (trailer ++ crlf
        ++ (trailerBytes trailers ++ crlf)).length
        = trailer.length + 2 + (trailerBytes trailers ++ crlf).length := by
      rw [List.length_append, List.length_append, length_crlf]
    have hrest : (trailerBytes trailers ++ crlf).length
        = (trailerBytes trailers).length + 2 := List.length_append
    rw [scanTrailers]
    by_cases hcut : n < trailer.length + 2
    · rw [find_crlf_cut hline hcut]
      have htaken := List.length_take_le n
        (trailer ++ crlf ++ (trailerBytes trailers ++ crlf))
      dsimp only
      rw [if_neg (by omega), if_neg (by omega), if_neg (by omega)]
    · obtain ⟨m, rfl⟩ : ∃ m, n = trailer.length + 2 + m :=
        ⟨n - (trailer.length + 2), by omega⟩
      rw [take_past, find_crlf_line hline]
      dsimp only
      rw [take_line, drop_line]
      have hpos : trailer.length ≠ 0 :=
        fun h => hnonempty (List.eq_nil_of_length_eq_zero h)
      rw [if_neg (by omega), if_neg hpos, htrailer, if_neg (by simp)]
      have hrec := @ih (fun t ht => hvalid t (List.mem_cons_of_mem _ ht))
        (used + trailer.length + 2) m rounds (by omega) (by omega)
        (by omega)
      rw [hrec]
      refine if_congr (by omega) rfl (if_congr (by omega) rfl rfl)

/-- What was scanned to the end is trailers. -/
theorem trailers_of_scan {used : Nat}
    (h : (scanTrailers wireBytes endOfStream maxHeaderBytes decoded rounds
      rest used).state = .Complete) :
    (scanTrailers wireBytes endOfStream maxHeaderBytes decoded rounds rest
        used).decodedBytes = decoded
      ∧ ∃ trailers, (∀ trailer ∈ trailers, TrailerLine trailer)
        ∧ rest = trailerBytes trailers ++ crlf
        ∧ used + (trailerBytes trailers).length ≤ maxHeaderBytes := by
  induction rounds generalizing rest used with
  | zero => cases h
  | succ rounds ih =>
    rw [scanTrailers] at h ⊢
    cases hfind : find crlf rest with
    | none =>
      rw [hfind] at h
      dsimp only at h
      split at h
      · cases h
      · cases endOfStream <;> cases h
    | some lineBytes =>
      obtain ⟨hline, hlength, hsplit⟩ := split_crlf hfind
      rw [hfind] at h
      dsimp only at h ⊢
      split at h
      · cases h
      · next hlimit =>
          rw [if_neg hlimit]
          split at h
          · next hzero =>
              -- the empty line behind the trailers
              rw [if_pos hzero]
              have hend : rest.drop (lineBytes + 2) = [] := by
                by_contra hne
                dsimp only at h
                rw [if_neg hne] at h
                cases h
              refine ⟨rfl, [], nofun, ?_, by simpa [trailerBytes] using
                (show used ≤ maxHeaderBytes by omega)⟩
              rw [hend, hzero] at hsplit
              exact hsplit.trans (List.append_nil _)
          · next hpos =>
              rw [if_neg hpos]
              split at h
              · cases h
              · next hvalid =>
                  rw [if_neg hvalid]
                  rw [Bool.not_eq_true', Bool.not_eq_false] at hvalid
                  obtain ⟨hdecoded, trailers, hall, hrest, hle⟩ := ih h
                  refine ⟨hdecoded, rest.take lineBytes :: trailers,
                    List.forall_mem_cons.mpr ⟨⟨hline, ?_, hvalid⟩, hall⟩,
                    ?_, ?_⟩
                  · intro hempty
                    rw [hempty] at hlength
                    exact hpos hlength.symm
                  · rw [trailerBytes, List.flatMap_cons, List.append_assoc]
                    show rest = _ ++ crlf ++ (trailerBytes trailers ++ crlf)
                    rw [← hrest]
                    exact hsplit
                  · rw [trailerBytes, List.flatMap_cons,
                      List.length_append, List.length_append, hlength]
                    rw [trailerBytes] at hle
                    rw [length_crlf]
                    omega

-- ================================== chunks

theorem length_spell (c : Chunk) :
    c.spell.length = c.line.length + 2 + (c.data.length + 2) := by
  rw [Chunk.spell, List.length_append, List.length_append, List.length_append]
  rfl

theorem spell_append (c : Chunk) (rest : Bytes) :
    c.spell ++ rest = c.line ++ crlf ++ (c.data ++ (crlf ++ rest)) := by
  rw [Chunk.spell]
  simp only [List.append_assoc]

/-- A chunk that is all there is scanned. -/
theorem scanChunks_chunk {c : Chunk} (hc : SizeLine c.line c.data.length)
    (hdata : c.data ≠ []) (hbody : maxBodyBytes < 2 ^ 63)
    (hframing : framing + (c.line.length + 4) ≤ maxHeaderBytes)
    (hdecoded : decoded + c.data.length ≤ maxBodyBytes) :
    scanChunks wireBytes endOfStream maxHeaderBytes maxBodyBytes (rounds + 1)
      (c.spell ++ rest) decoded framing
    = scanChunks wireBytes endOfStream maxHeaderBytes maxBodyBytes rounds rest
      (decoded + c.data.length) (framing + (c.line.length + 4)) := by
  have hline : c.line.length ≠ 0 := fun h =>
    hc.nonempty (List.eq_nil_of_length_eq_zero h)
  have hpos : c.data.length ≠ 0 := fun h =>
    hdata (List.eq_nil_of_length_eq_zero h)
  have hshort := hc.short
  have hsum : (c.data.length + 2) % 2 ^ 64 = c.data.length + 2 :=
    Nat.mod_eq_of_lt (by omega)
  have hdrop : (c.data ++ (crlf ++ rest)).drop (c.data.length + 2) = rest := by
    rw [← List.append_assoc]
    exact List.drop_left' (by simp)
  have hend : ((c.data ++ (crlf ++ rest)).drop c.data.length).take 2
      = crlf := by
    rw [List.drop_left]
    rfl
  rw [spell_append, scanChunks, find_crlf_line hc.ends]
  dsimp only
  rw [if_neg (by omega), take_line, hc.gives]
  dsimp only
  rw [if_neg (by omega), drop_line, if_neg hpos, hsum,
    if_neg (by simp; omega), hend, if_neg (fun h => h rfl),
    if_neg (by omega), hdrop, Nat.add_assoc framing]

/-- A line that is cut is too long, if it is as long as it may be and the cut
is inside of its line end. -/
theorem scanChunks_line_cut {line : Bytes} {n : Nat} (hline : Line crlf line)
    (hshort : line.length ≤ kMaximumChunkLineBytes) (hn : n < line.length + 2) :
    scanChunks wireBytes endOfStream maxHeaderBytes maxBodyBytes (rounds + 1)
      ((line ++ crlf ++ rest).take n) decoded framing
    = if n = line.length + 1 ∧ line.length = kMaximumChunkLineBytes then
        { state := .BodyTooLarge }
      else unfinished endOfStream := by
  have htaken : ((line ++ crlf ++ rest).take n).length = n := by
    rw [List.length_take, List.length_append, List.length_append, length_crlf]
    omega
  rw [scanChunks, find_crlf_cut hline hn]
  dsimp only
  rw [htaken]
  exact if_congr (by omega) rfl rfl

/-- A chunk that is cut needs more, or is cut in a line that is too long. -/
theorem scanChunks_cut {c : Chunk} {n : Nat}
    (hc : SizeLine c.line c.data.length) (hdata : c.data ≠ [])
    (hbody : maxBodyBytes < 2 ^ 63)
    (hframing : framing + (c.line.length + 4) ≤ maxHeaderBytes)
    (hdecoded : decoded + c.data.length ≤ maxBodyBytes)
    (hn : n < c.spell.length) :
    scanChunks wireBytes endOfStream maxHeaderBytes maxBodyBytes (rounds + 1)
      ((c.spell ++ rest).take n) decoded framing
    = if n = c.line.length + 1 ∧ c.line.length = kMaximumChunkLineBytes then
        { state := .BodyTooLarge }
      else unfinished endOfStream := by
  have hlength := length_spell c
  rw [spell_append]
  by_cases hcut : n < c.line.length + 2
  · exact scanChunks_line_cut hc.ends hc.short hcut
  · obtain ⟨m, rfl⟩ : ∃ m, n = c.line.length + 2 + m :=
      ⟨n - (c.line.length + 2), by omega⟩
    have hpos : c.data.length ≠ 0 := fun h =>
      hdata (List.eq_nil_of_length_eq_zero h)
    have hline : c.line.length ≠ 0 := fun h =>
      hc.nonempty (List.eq_nil_of_length_eq_zero h)
    have hshort := hc.short
    have hsum : (c.data.length + 2) % 2 ^ 64 = c.data.length + 2 :=
      Nat.mod_eq_of_lt (by omega)
    have htaken := List.length_take_le m (c.data ++ (crlf ++ rest))
    rw [take_past, scanChunks, find_crlf_line hc.ends]
    dsimp only
    rw [if_neg (by omega), take_line, hc.gives]
    dsimp only
    rw [if_neg (by omega), drop_line, if_neg hpos, hsum, if_pos (by omega),
      if_neg (by omega)]

/-- The last line, and the trailers behind it. -/
theorem scanChunks_last {last : Bytes} (hlast : SizeLine last 0)
    (hframing : framing + (last.length + 2) ≤ maxHeaderBytes) :
    scanChunks wireBytes endOfStream maxHeaderBytes maxBodyBytes (rounds + 1)
      (last ++ crlf ++ rest) decoded framing
    = scanTrailers wireBytes endOfStream maxHeaderBytes decoded
      (rest.length + 1) rest 0 := by
  have hline : last.length ≠ 0 := fun h =>
    hlast.nonempty (List.eq_nil_of_length_eq_zero h)
  have hshort := hlast.short
  rw [scanChunks, find_crlf_line hlast.ends]
  dsimp only
  rw [if_neg (by omega), take_line, hlast.gives]
  dsimp only
  rw [if_neg (by omega), drop_line, if_pos rfl]

-- ============================ whole bodies

theorem spell_cons (c : Chunk) (chunks : List Chunk) (last : Bytes)
    (trailers : List Bytes) :
    ChunkedBody.spell ⟨c :: chunks, last, trailers⟩
      = c.spell ++ ChunkedBody.spell ⟨chunks, last, trailers⟩ := by
  rw [ChunkedBody.spell, List.flatMap_cons, List.append_assoc]
  rfl

/-- The chunks behind the first. -/
theorem ChunkedBody.Within.tail {c : Chunk} {chunks : List Chunk} {last : Bytes}
    {trailers : List Bytes}
    (h : ChunkedBody.Within ⟨c :: chunks, last, trailers⟩ maxHeaderBytes
      maxBodyBytes decoded framing) :
    ChunkedBody.Within ⟨chunks, last, trailers⟩ maxHeaderBytes maxBodyBytes
      (decoded + c.data.length) (framing + (c.line.length + 4)) := by
  have hframed := h.framed
  have hbounded := h.bounded
  rw [ChunkedBody.framing, List.map_cons, List.sum_cons] at hframed
  rw [ChunkedBody.data, List.flatMap_cons, List.length_append] at hbounded
  refine ⟨fun c hc => h.chunks c (List.mem_cons_of_mem _ hc), h.last,
    h.trailers, h.trailing, ?_, ?_⟩
  · rw [ChunkedBody.framing]
    dsimp only at hframed ⊢
    omega
  · rw [ChunkedBody.data]
    dsimp only
    omega

/-- The first chunk is within the limits as well. -/
theorem ChunkedBody.Within.head {c : Chunk} {chunks : List Chunk}
    {last : Bytes} {trailers : List Bytes} {framing : Nat}
    (h : ChunkedBody.Within ⟨c :: chunks, last, trailers⟩ maxHeaderBytes
      maxBodyBytes decoded framing) :
    framing + (c.line.length + 4) ≤ maxHeaderBytes
      ∧ decoded + c.data.length ≤ maxBodyBytes := by
  have hframed := h.tail.framed
  have hbounded := h.tail.bounded
  omega

/-- The bytes of a body are scanned to the end. -/
theorem scanChunks_spell {b : ChunkedBody} {framing rounds : Nat}
    (h : b.Within maxHeaderBytes maxBodyBytes decoded framing)
    (hbody : maxBodyBytes < 2 ^ 63) (hrounds : b.chunks.length < rounds) :
    scanChunks wireBytes endOfStream maxHeaderBytes maxBodyBytes rounds
      b.spell decoded framing
    = { state := .Complete, consumedBytes := wireBytes
        decodedBytes := decoded + b.data.length } := by
  obtain ⟨chunks, last, trailers⟩ := b
  obtain ⟨rounds, rfl⟩ := Nat.exists_eq_succ_of_ne_zero hrounds.ne_bot
  induction chunks generalizing decoded framing rounds with
  | nil =>
    have hframed := h.framed
    rw [ChunkedBody.framing, List.map_nil, List.sum_nil, Nat.zero_add]
      at hframed
    rw [ChunkedBody.spell, List.flatMap_nil, List.nil_append,
      scanChunks_last h.last hframed]
    have hscan : scanTrailers wireBytes endOfStream maxHeaderBytes decoded _
        ((trailerBytes trailers ++ crlf).take _) 0 = _ :=
      scanTrailers_take h.trailers
        (by rw [Nat.zero_add]; exact h.trailing) le_rfl (Nat.lt_succ_self _)
    rw [List.take_length, if_pos rfl] at hscan
    exact hscan
  | cons c chunks ih =>
    obtain ⟨hc, hdata⟩ := h.chunks c List.mem_cons_self
    obtain ⟨hframing, hdecoded⟩ := h.head
    rw [List.length_cons] at hrounds
    obtain ⟨rounds, rfl⟩ := Nat.exists_eq_succ_of_ne_zero
      (show rounds ≠ 0 by omega)
    rw [spell_cons, scanChunks_chunk hc hdata hbody hframing hdecoded,
      ih h.tail rounds (Nat.lt_of_succ_lt_succ hrounds), ChunkedBody.data,
      ChunkedBody.data, List.flatMap_cons, List.length_append,
      Nat.add_assoc]

/-- A beginning of a body needs more, where nothing is at its limit. -/
theorem scanChunks_beginning {b : ChunkedBody} {n : Nat}
    (h : b.Within maxHeaderBytes maxBodyBytes decoded framing)
    (hbody : maxBodyBytes < 2 ^ 63) (hlimit : ¬ b.AtLimit maxHeaderBytes)
    (hn : n < b.spell.length) (hrounds : n < rounds) :
    scanChunks wireBytes endOfStream maxHeaderBytes maxBodyBytes rounds
      (b.spell.take n) decoded framing = unfinished endOfStream := by
  obtain ⟨chunks, last, trailers⟩ := b
  obtain ⟨rounds, rfl⟩ := Nat.exists_eq_succ_of_ne_zero hrounds.ne_bot
  induction chunks generalizing decoded framing n rounds with
  | nil =>
    rw [ChunkedBody.AtLimit, not_or, not_or] at hlimit
    obtain ⟨-, hlast, htrailers⟩ := hlimit
    have hframed := h.framed
    rw [ChunkedBody.framing, List.map_nil, List.sum_nil, Nat.zero_add]
      at hframed
    rw [ChunkedBody.spell, List.flatMap_nil, List.nil_append] at hn ⊢
    by_cases hcut : n < last.length + 2
    · rw [scanChunks_line_cut h.last.ends h.last.short hcut,
        if_neg (fun hat => hlast hat.2)]
    · obtain ⟨m, rfl⟩ : ∃ m, n = last.length + 2 + m :=
        ⟨n - (last.length + 2), by omega⟩
      rw [List.length_append, List.length_append, length_crlf] at hn
      have hm : m < (trailerBytes trailers ++ crlf).length := by
        dsimp only at hn
        omega
      have hlength : ((trailerBytes trailers ++ crlf).take m).length = m := by
        rw [List.length_take]
        omega
      rw [take_past, scanChunks_last h.last hframed, hlength,
        scanTrailers_take h.trailers (by
          rw [Nat.zero_add]
          exact h.trailing) hm.le (Nat.lt_succ_self m),
        if_neg hm.ne, if_neg]
      rw [Nat.zero_add]
      exact fun hat => htrailers hat.1
  | cons c chunks ih =>
    obtain ⟨hc, hdata⟩ := h.chunks c List.mem_cons_self
    obtain ⟨hframing, hdecoded⟩ := h.head
    rw [spell_cons] at hn ⊢
    have hlength := length_spell c
    by_cases hcut : n < c.spell.length
    · rw [scanChunks_cut hc hdata hbody hframing hdecoded hcut, if_neg]
      exact fun hat => hlimit (Or.inl ⟨c, List.mem_cons_self, hat.2⟩)
    · obtain ⟨m, rfl⟩ : ∃ m, n = c.spell.length + m :=
        ⟨n - c.spell.length, by omega⟩
      rw [List.length_append] at hn
      obtain ⟨rounds, rfl⟩ := Nat.exists_eq_succ_of_ne_zero
        (show rounds ≠ 0 by omega)
      rw [List.take_length_add_append,
        scanChunks_chunk hc hdata hbody hframing hdecoded]
      refine ih h.tail (fun hat => hlimit ?_) (by omega) rounds (by omega)
      rcases hat with ⟨c', hc', hat⟩ | hat
      · exact Or.inl ⟨c', List.mem_cons_of_mem _ hc', hat⟩
      · exact Or.inr hat

/-- Where something is at its limit, one beginning is too large. -/
theorem scanChunks_too_large {b : ChunkedBody} {framing : Nat}
    (h : b.Within maxHeaderBytes maxBodyBytes decoded framing)
    (hbody : maxBodyBytes < 2 ^ 63) (hlimit : b.AtLimit maxHeaderBytes) :
    ∃ n < b.spell.length, ∀ wireBytes, ∀ rounds > n,
      scanChunks wireBytes endOfStream maxHeaderBytes maxBodyBytes rounds
        (b.spell.take n) decoded framing = { state := .BodyTooLarge } := by
  obtain ⟨chunks, last, trailers⟩ := b
  induction chunks generalizing decoded framing with
  | nil =>
    have hframed := h.framed
    rw [ChunkedBody.framing, List.map_nil, List.sum_nil, Nat.zero_add]
      at hframed
    rw [ChunkedBody.spell, List.flatMap_nil, List.nil_append]
    rcases hlimit with ⟨c, hc, -⟩ | hlast | htrailers
    · cases hc
    · refine ⟨last.length + 1, ?_, fun wireBytes rounds hrounds => ?_⟩
      · rw [List.length_append, List.length_append, length_crlf]
        dsimp only
        omega
      · obtain ⟨rounds, rfl⟩ := Nat.exists_eq_succ_of_ne_zero hrounds.ne_bot
        rw [scanChunks_line_cut h.last.ends h.last.short
          (Nat.lt_succ_self _), if_pos ⟨rfl, hlast⟩]
    · -- all but the last byte of the trailers
      have hlength : (trailerBytes trailers ++ crlf).length
          = (trailerBytes trailers).length + 2 := List.length_append
      refine ⟨last.length + 2 + ((trailerBytes trailers).length + 1), ?_,
        fun wireBytes rounds hrounds => ?_⟩
      · rw [List.length_append, List.length_append, length_crlf]
        dsimp only
        omega
      · obtain ⟨rounds, rfl⟩ := Nat.exists_eq_succ_of_ne_zero hrounds.ne_bot
        have htake : ((trailerBytes trailers ++ crlf).take
            ((trailerBytes trailers).length + 1)).length
            = (trailerBytes trailers).length + 1 := by
          rw [List.length_take]
          omega
        have hlt : (trailerBytes trailers).length + 1
            < (trailerBytes trailers ++ crlf).length := by omega
        rw [take_past, scanChunks_last h.last hframed, htake,
          scanTrailers_take h.trailers (by
            rw [Nat.zero_add]
            exact h.trailing) hlt.le (Nat.lt_succ_self _),
          if_neg hlt.ne, if_pos]
        rw [Nat.zero_add]
        exact ⟨htrailers, hlength.symm⟩
  | cons c chunks ih =>
    obtain ⟨hc, hdata⟩ := h.chunks c List.mem_cons_self
    obtain ⟨hframing, hdecoded⟩ := h.head
    have hlength := length_spell c
    rw [spell_cons]
    by_cases hat : c.line.length = kMaximumChunkLineBytes
    · refine ⟨c.line.length + 1, ?_, fun wireBytes rounds hrounds => ?_⟩
      · rw [List.length_append]
        omega
      · obtain ⟨rounds, rfl⟩ := Nat.exists_eq_succ_of_ne_zero hrounds.ne_bot
        rw [scanChunks_cut hc hdata hbody hframing hdecoded (by omega),
          if_pos ⟨rfl, hat⟩]
    · have htail : ChunkedBody.AtLimit ⟨chunks, last, trailers⟩
          maxHeaderBytes := by
        rcases hlimit with ⟨c', hc', hat'⟩ | hlimit
        · rcases List.mem_cons.mp hc' with rfl | hc'
          · exact absurd hat' hat
          · exact Or.inl ⟨c', hc', hat'⟩
        · exact Or.inr hlimit
      obtain ⟨n, hn, hscan⟩ := ih h.tail htail
      refine ⟨c.spell.length + n, ?_, fun wireBytes rounds hrounds => ?_⟩
      · rw [List.length_append]
        omega
      · obtain ⟨rounds, rfl⟩ := Nat.exists_eq_succ_of_ne_zero hrounds.ne_bot
        rw [List.take_length_add_append,
          scanChunks_chunk hc hdata hbody hframing hdecoded]
        exact hscan wireBytes rounds (by omega)

/-- A chunk that was scanned, in front of what else was. -/
theorem spelled_of_chunk {chunkBytes lineBytes : Nat}
    (hbody : maxBodyBytes < 2 ^ 63) (hdecoded : decoded ≤ maxBodyBytes)
    (hsplit : rest = rest.take lineBytes ++ crlf ++ rest.drop (lineBytes + 2))
    (hlength : (rest.take lineBytes).length = lineBytes)
    (hsize : SizeLine (rest.take lineBytes) chunkBytes) (hpos : chunkBytes ≠ 0)
    (hbounded : chunkBytes ≤ maxBodyBytes - decoded)
    (h : (if (rest.drop (lineBytes + 2)).length < (chunkBytes + 2) % 2 ^ 64
        then unfinished endOfStream
      else if ((rest.drop (lineBytes + 2)).drop chunkBytes).take 2 ≠ crlf then
        { state := .ProtocolError }
      else if framing + (lineBytes + 2) + 2 > maxHeaderBytes then
        { state := .BodyTooLarge }
      else scanChunks wireBytes endOfStream maxHeaderBytes maxBodyBytes rounds
        ((rest.drop (lineBytes + 2)).drop (chunkBytes + 2))
        (decoded + chunkBytes)
        (framing + (lineBytes + 2) + 2) : ChunkProjection).state = .Complete)
    (hrest : ∀ {rest : Bytes} {decoded framing : Nat},
      decoded ≤ maxBodyBytes →
      (scanChunks wireBytes endOfStream maxHeaderBytes maxBodyBytes rounds
        rest decoded framing).state = .Complete →
      ∃ b : ChunkedBody, b.Within maxHeaderBytes maxBodyBytes decoded framing
        ∧ rest = b.spell) :
    ∃ b : ChunkedBody, b.Within maxHeaderBytes maxBodyBytes decoded framing
      ∧ rest = b.spell := by
  have hsum : (chunkBytes + 2) % 2 ^ 64 = chunkBytes + 2 :=
    Nat.mod_eq_of_lt (by omega)
  rw [hsum] at h
  split at h
  · cases endOfStream <;> cases h
  · next henough =>
      rw [not_lt] at henough
      split at h
      · cases h
      · next hend =>
          rw [not_not] at hend
          split at h
          · cases h
          · obtain ⟨b, hb, hspell⟩ := hrest (by omega) h
            obtain ⟨data, hdata⟩ : ∃ data, data
                = (rest.drop (lineBytes + 2)).take chunkBytes := ⟨_, rfl⟩
            have hsizeOf : data.length = chunkBytes := by
              rw [hdata, List.length_take]
              omega
            have hbehind : rest.drop (lineBytes + 2)
                = data ++ (crlf ++ b.spell) := by
              have htwo := List.take_append_drop 2
                ((rest.drop (lineBytes + 2)).drop chunkBytes)
              rw [hend, List.drop_drop] at htwo
              rw [← hspell, htwo, hdata, List.take_append_drop]
            have hframing := hb.framed
            have hdecoded := hb.bounded
            refine ⟨⟨⟨rest.take lineBytes, data⟩ :: b.chunks, b.last,
              b.trailers⟩, ⟨List.forall_mem_cons.mpr ⟨⟨?_, ?_⟩, hb.chunks⟩,
                hb.last, hb.trailers, hb.trailing, ?_, ?_⟩, ?_⟩
            · rw [hsizeOf]
              exact hsize
            · rintro rfl
              exact hpos hsizeOf.symm
            · rw [ChunkedBody.framing] at hframing ⊢
              rw [List.map_cons, List.sum_cons, hlength]
              dsimp only
              omega
            · rw [ChunkedBody.data] at hdecoded ⊢
              rw [List.flatMap_cons, List.length_append]
              dsimp only
              omega
            · rw [spell_cons, spell_append, ← hbehind]
              exact hsplit

/-- What was scanned to the end is a body within the limits. -/
theorem spelled_of_scan (hbody : maxBodyBytes < 2 ^ 63)
    (hdecoded : decoded ≤ maxBodyBytes)
    (h : (scanChunks wireBytes endOfStream maxHeaderBytes maxBodyBytes rounds
      rest decoded framing).state = .Complete) :
    ∃ b : ChunkedBody, b.Within maxHeaderBytes maxBodyBytes decoded framing
      ∧ rest = b.spell := by
  induction rounds generalizing rest decoded framing with
  | zero => cases h
  | succ rounds ih =>
    rw [scanChunks] at h
    cases hfind : find crlf rest with
    | none =>
      rw [hfind] at h
      dsimp only at h
      split at h
      · cases h
      · cases endOfStream <;> cases h
    | some lineBytes =>
      obtain ⟨hline, hlength, hsplit⟩ := split_crlf hfind
      rw [hfind] at h
      dsimp only at h
      split at h
      · dsimp only at h
        split at h
        · cases h
        · cases h
      · next hbounds =>
          rw [not_or, not_lt] at hbounds
          split at h
          · cases h
          · next chunkBytes hsize =>
              have hsizeLine : ∀ {size}, chunkBytes = size →
                  SizeLine (rest.take lineBytes) size := by
                rintro size rfl
                refine ⟨hline, fun hempty => hbounds.1 ?_, ?_, hsize⟩
                · rw [← hlength, hempty]
                  rfl
                · rw [hlength]
                  exact hbounds.2
              split at h
              · cases h
              · next hlimits =>
                  rw [not_or, not_lt, not_lt] at hlimits
                  split at h
                  · next hzero =>
                      -- the last line
                      obtain ⟨-, trailers, hall, hrest, hle⟩ :=
                        trailers_of_scan h
                      rw [Nat.zero_add] at hle
                      refine ⟨⟨[], rest.take lineBytes, trailers⟩,
                        ⟨nofun, hsizeLine hzero, hall, hle, ?_, ?_⟩, ?_⟩
                      · rw [ChunkedBody.framing, List.map_nil,
                          List.sum_nil, Nat.zero_add, hlength]
                        exact hlimits.1
                      · exact hdecoded
                      · rw [ChunkedBody.spell, List.flatMap_nil,
                          List.nil_append, ← hrest]
                        exact hsplit
                  · next hpos =>
                      exact spelled_of_chunk hbody hdecoded hsplit hlength
                        (hsizeLine rfl) hpos hlimits.2 h
                        fun hsmall hscan => ih hsmall hscan

end Scan

-- ================================ decoding

/-- What is decoded is the data of the chunks. -/
theorem decodeChunks_spell {b : ChunkedBody}
    {maxHeaderBytes maxBodyBytes decoded decodedBytes : Nat} {body : Bytes}
    (h : b.Within maxHeaderBytes maxBodyBytes decoded framing)
    (hbytes : body.length + b.data.length = decodedBytes)
    (hrounds : b.chunks.length < rounds) :
    decodeChunks decodedBytes rounds b.spell body = body ++ b.data := by
  obtain ⟨chunks, last, trailers⟩ := b
  obtain ⟨rounds, rfl⟩ := Nat.exists_eq_succ_of_ne_zero hrounds.ne_bot
  induction chunks generalizing decoded framing rounds body with
  | nil =>
    rw [ChunkedBody.data, List.flatMap_nil, List.length_nil,
      Nat.add_zero] at hbytes
    rw [decodeChunks, if_neg (by omega), ChunkedBody.data, List.flatMap_nil,
      List.append_nil]
  | cons c chunks ih =>
    obtain ⟨hc, hdata⟩ := h.chunks c List.mem_cons_self
    have hpos : c.data.length ≠ 0 := fun h =>
      hdata (List.eq_nil_of_length_eq_zero h)
    have hwhole : ChunkedBody.data ⟨c :: chunks, last, trailers⟩
        = c.data ++ ChunkedBody.data ⟨chunks, last, trailers⟩ :=
      List.flatMap_cons
    have hdrop : (c.data ++ (crlf
        ++ ChunkedBody.spell ⟨chunks, last, trailers⟩)).drop
          (c.data.length + 2)
        = ChunkedBody.spell ⟨chunks, last, trailers⟩ := by
      rw [← List.append_assoc]
      exact List.drop_left' (by simp)
    rw [hwhole, List.length_append] at hbytes
    rw [List.length_cons] at hrounds
    obtain ⟨rounds, rfl⟩ := Nat.exists_eq_succ_of_ne_zero
      (show rounds ≠ 0 by omega)
    rw [spell_cons, spell_append, decodeChunks, if_pos (by omega),
      find_crlf_line hc.ends, Option.getD_some]
    dsimp only
    rw [take_line, hc.gives, drop_line, Option.getD_some, hdrop,
      List.take_left, hwhole, ← List.append_assoc]
    refine ih h.tail ?_ rounds (Nat.lt_of_succ_lt_succ hrounds)
    rw [List.length_append]
    omega

theorem length_chunks_lt (b : ChunkedBody) :
    b.chunks.length < b.spell.length + 1 := by
  obtain ⟨chunks, last, trailers⟩ := b
  induction chunks with
  | nil => exact Nat.succ_pos _
  | cons c chunks ih =>
    have hlength := length_spell c
    rw [spell_cons, List.length_append, List.length_cons]
    dsimp only at ih
    omega

end RemoteDesk.Moonlight.Runtime
