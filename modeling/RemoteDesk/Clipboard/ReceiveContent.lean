/-
What a receive task writes: every file of the selection, from the
answers to its requests, and nothing beyond the budget.

# The invariant

`Holds` says, point by point, how far the two loops of the worker have
come: the sizes settled (`Sizing`), the files written (`Filing`), and
the file in hand (`InFile`). It reads of the log only that requests were
sent and answers accepted, so the callers' steps, which add to the log,
keep it (`Holds.mono`).

# The end

`fuel` bounds the steps the worker still has to make: each of them
lowers it, but for the wait for an answer, which a deadline ends.
-/
import RemoteDesk.Clipboard.ReceiveTask

namespace RemoteDesk.Clipboard

open Lib

-- =============================== the files

variable {bytes : List UInt8} {e : RemoteClipboardFileEntry}
variable {v : RdpClipboardFileRequest}

theorem pwrite_end {file : List UInt8} :
    pwrite file bytes file.length = file ++ bytes := by
  simp [pwrite]

/-- A block written at the end of the file is appended, however the
system splits it. -/
theorem writeAll_end {results : List PWrite} {file out : List UInt8}
    (h : writeAll results file bytes file.length = (out, true)) :
    out = file ++ bytes := by
  induction results generalizing file bytes with
  | nil =>
    unfold writeAll at h
    split at h
    · rename_i hnil
      cases h
      simp [hnil]
    · rw [pwrite_end] at h
      cases h
      rfl
  | cons result results ih =>
    unfold writeAll at h
    split at h
    · rename_i hnil
      cases h
      simp [hnil]
    · cases result with
      | interrupted => exact ih h
      | failed => cases h
      | wrote count =>
        dsimp only at h
        split at h
        · cases h
        · rw [pwrite_end] at h
          by_cases hle : count ≤ bytes.length
          · have hlen : (file ++ bytes.take count).length
                = file.length + count := by
              rw [List.length_append, List.length_take_of_le hle]
            rw [← hlen] at h
            rw [ih h, List.append_assoc, List.take_append_drop]
          · have hall := List.take_of_length_le (Nat.le_of_not_le hle)
            have hnone := List.drop_eq_nil_of_le (Nat.le_of_not_le hle)
            rw [hall, hnone, writeAll.eq_def, if_pos rfl] at h
            cases h
            rfl

-- =========================== the histories

/-- A request that was sent, and an answer accepted for it. -/
def Answered (log : List ReceiveEvent) (v : RdpClipboardFileRequest)
    (bytes : List UInt8) : Prop :=
  .sent v ∈ log ∧ .accepted v.streamId true bytes ∈ log

/-- An entry with its size: as offered, or as the peer answered. -/
def SizedFrom (log : List ReceiveEvent)
    (offered e : RemoteClipboardFileEntry) : Prop :=
  if offered.sizeKnown ∨ offered.directory then e = offered
  else ∃ v bytes, v.sizeQuery = true ∧ v.index = offered.index
    ∧ Answered log v bytes ∧ bytes.length = 8
    ∧ e = { offered with size := leNat bytes, sizeKnown := true }

/-- The answers to the range requests of a file, each asked for where
the one before ended. -/
def Consecutive (log : List ReceiveEvent) (e : RemoteClipboardFileEntry) :
    Nat → List (RdpClipboardFileRequest × List UInt8) → Prop
  | _, [] => True
  | offset, (v, bytes) :: rest =>
    (v.sizeQuery = false ∧ v.index = e.index ∧ v.offset = offset
      ∧ v.requested = min kBlockBytes (e.size - offset)
      ∧ bytes ≠ [] ∧ bytes.length ≤ v.requested ∧ Answered log v bytes)
    ∧ Consecutive log e (offset + bytes.length) rest

/-- A file written in full from its answers. -/
structure Written (log : List ReceiveEvent) (r : FileReceipt) : Prop where
  answers : Consecutive log r.entry 0 r.answers
  content : r.content = (r.answers.map (·.2)).flatten
  full : r.content.length = r.entry.size

section Mono

variable {log log' : List ReceiveEvent} (hlog : log ⊆ log')
include hlog

theorem Answered.mono (h : Answered log v bytes) : Answered log' v bytes :=
  ⟨hlog h.1, hlog h.2⟩

theorem SizedFrom.mono {offered : RemoteClipboardFileEntry}
    (h : SizedFrom log offered e) : SizedFrom log' offered e := by
  unfold SizedFrom at h ⊢
  split at h
  · rename_i hknown
    rwa [if_pos hknown]
  · rename_i hknown
    rw [if_neg hknown]
    obtain ⟨v, bytes, hquery, hindex, hans, hrest⟩ := h
    exact ⟨v, bytes, hquery, hindex, hans.mono hlog, hrest⟩

theorem Consecutive.mono {offset : Nat}
    {answers : List (RdpClipboardFileRequest × List UInt8)}
    (h : Consecutive log e offset answers) :
    Consecutive log' e offset answers := by
  induction answers generalizing offset with
  | nil => trivial
  | cons a rest ih =>
    obtain ⟨⟨hquery, hindex, hoffset, hreq, hne, hle, hans⟩, hrest⟩ := h
    exact ⟨⟨hquery, hindex, hoffset, hreq, hne, hle, hans.mono hlog⟩,
      ih hrest⟩

theorem Written.mono {r : FileReceipt} (h : Written log r) :
    Written log' r := { h with answers := h.answers.mono hlog }

end Mono

theorem Consecutive.snoc {log : List ReceiveEvent} {offset : Nat}
    {answers : List (RdpClipboardFileRequest × List UInt8)}
    (h : Consecutive log e offset answers) (hv : Consecutive log e
      (offset + ((answers.map (·.2)).flatten).length) [(v, bytes)]) :
    Consecutive log e offset (answers ++ [(v, bytes)]) := by
  induction answers generalizing offset with
  | nil => simpa using hv
  | cons a rest ih =>
    refine ⟨h.1, ih h.2 ?_⟩
    simpa [Nat.add_assoc] using hv

-- =========================== the invariant

/-- What a task keeps of its files. -/
structure Content where
  entries : List RemoteClipboardFileEntry
  limit : Nat
  total : Nat
  next : Nat
  offset : Nat
  transferred : Nat
  partialFile : List UInt8
  files : List (List UInt8 × List UInt8)
  answers : List (RdpClipboardFileRequest × List UInt8)
  receipts : List FileReceipt
  pending : RdpClipboardFileRequest

def ReceiveTask.content (s : ReceiveTask) : Content where
  entries := s.entries
  limit := s.limit
  total := s.total
  next := s.next
  offset := s.offset
  transferred := s.status.transferredBytes
  partialFile := s.partialFile
  files := s.files
  answers := s.answers
  receipts := s.receipts
  pending := s.pending

namespace Content

/-- The bytes of the files written. -/
def written (c : Content) : Nat :=
  (c.receipts.map (·.content.length)).sum

/-- The loop over the sizes has settled the first `next` entries. -/
structure Sizing (offered : List RemoteClipboardFileEntry)
    (log : List ReceiveEvent) (c : Content) : Prop where
  entries : ∃ settled done rest, offered = settled ++ rest
    ∧ c.entries = done ++ rest ∧ done.length = c.next
    ∧ List.Forall₂ (SizedFrom log) settled done
    ∧ c.total = (done.map (·.size)).sum
  budget : c.total ≤ c.limit
  receipts : c.receipts = []
  files : c.files = []
  transferred : c.transferred = 0

/-- The loop over the files has done the first `next` entries. -/
structure Filing (offered : List RemoteClipboardFileEntry)
    (log : List ReceiveEvent) (c : Content) : Prop where
  sized : List.Forall₂ (SizedFrom log) offered c.entries
  budget : (c.entries.map (·.size)).sum ≤ c.limit
  next_le : c.next ≤ c.entries.length
  receipts : c.receipts.map (·.entry)
    = (c.entries.take c.next).filter fun e => !e.directory
  written : ∀ r ∈ c.receipts, Written log r
  files : c.files
    = c.receipts.map fun r => (r.entry.relativeName, r.content)

/-- The file in hand. -/
structure InFile (log : List ReceiveEvent) (c : Content)
    (e : RemoteClipboardFileEntry) : Prop where
  current : c.entries[c.next]? = some e
  file : e.directory = false
  answers : Consecutive log e 0 c.answers
  content : c.partialFile = (c.answers.map (·.2)).flatten
  length : c.partialFile.length = c.offset
  offset_le : c.offset ≤ e.size

/-- What a request in flight has left behind. -/
def Requested (log : List ReceiveEvent) (c : Content)
    (v : RdpClipboardFileRequest) : RequestPoint → Prop
  | .admitting => True
  | .sendLocking | .sendChecking | .sending =>
    c.pending = v ∧ v.streamId ≠ 0
  | .sendLeaving sent =>
    (c.pending = v ∧ v.streamId ≠ 0) ∧ (sent = true → .sent v ∈ log)
  | .waiting => (c.pending = v ∧ v.streamId ≠ 0) ∧ .sent v ∈ log

/-- A range request for the file in hand. -/
def AsksRange (c : Content) (e : RemoteClipboardFileEntry)
    (v : RdpClipboardFileRequest) : Prop :=
  v.sizeQuery = false ∧ v.index = e.index ∧ v.offset = c.offset
    ∧ v.requested = min kBlockBytes (e.size - c.offset)
    ∧ c.offset < e.size

/-- A query for the size of the next entry. -/
def AsksSize (c : Content) (v : RdpClipboardFileRequest) : Prop :=
  v.sizeQuery = true ∧ ∃ e, c.entries[c.next]? = some e
    ∧ v.index = e.index ∧ e.sizeKnown = false ∧ e.directory = false

/-- What the worker relies on at a point. -/
def PointHolds (offered : List RemoteClipboardFileEntry)
    (log : List ReceiveEvent) (c : Content) : WorkerPoint → Prop
  | .queued => c.Sizing offered log ∧ c.next = 0
  | .sizing => c.Sizing offered log
  | .starting => c.Sizing offered log ∧ c.entries.length ≤ c.next
  | .requesting v point => c.Requested log v point
      ∧ (c.AsksSize v ∧ c.Sizing offered log
        ∨ c.Filing offered log
          ∧ c.transferred = c.written + c.offset
          ∧ ∃ e, c.InFile log e ∧ c.AsksRange e v)
  | .entering => c.Filing offered log
      ∧ c.transferred = c.written
  | .naming => c.Filing offered log
      ∧ c.transferred = c.written
      ∧ c.next < c.entries.length
  | .copying => c.Filing offered log
      ∧ c.transferred = c.written + c.offset
      ∧ ∃ e, c.InFile log e
  | .budgeting v bytes => c.Filing offered log
      ∧ c.transferred = c.written + c.offset
      ∧ ∃ e, c.InFile log e ∧ c.AsksRange e v
        ∧ bytes ≠ [] ∧ bytes.length ≤ v.requested ∧ Answered log v bytes
  | .counting bytes => c.Filing offered log
      ∧ c.transferred + bytes = c.written + c.offset
      ∧ ∃ e, c.InFile log e
  | .verifying => c.Filing offered log
      ∧ c.transferred = c.written + c.offset
      ∧ ∃ e, c.InFile log e ∧ c.offset = e.size
  | _ => True

/-- Every selected file is there. -/
structure Done (offered : List RemoteClipboardFileEntry)
    (log : List ReceiveEvent) (c : Content) : Prop where
  filing : c.Filing offered log
  all : c.next = c.entries.length
  transferred : c.transferred = c.written

section Mono

variable {offered : List RemoteClipboardFileEntry}
  {log log' : List ReceiveEvent} {c : Content} (hlog : log ⊆ log')
include hlog

theorem Sizing.mono (h : c.Sizing offered log) : c.Sizing offered log' := by
  obtain ⟨settled, done, rest, hoffered, hentries, hlen, hall, htotal⟩ :=
    h.entries
  exact { h with
    entries := ⟨settled, done, rest, hoffered, hentries, hlen,
      hall.imp fun _ _ hsized => hsized.mono hlog, htotal⟩ }

theorem Filing.mono (h : c.Filing offered log) : c.Filing offered log' :=
  { h with
    sized := h.sized.imp fun _ _ hsized => hsized.mono hlog
    written := fun r hr => (h.written r hr).mono hlog }

theorem InFile.mono (h : c.InFile log e) :
    c.InFile log' e := { h with answers := h.answers.mono hlog }

theorem Requested.mono {point : RequestPoint}
    (h : c.Requested log v point) : c.Requested log' v point := by
  cases point with
  | sendLeaving sent => exact ⟨h.1, fun hs => hlog (h.2 hs)⟩
  | waiting => exact ⟨h.1, hlog h.2⟩
  | _ => exact h

theorem PointHolds.mono {point : WorkerPoint}
    (h : c.PointHolds offered log point) :
    c.PointHolds offered log' point := by
  cases point with
  | queued => exact ⟨h.1.mono hlog, h.2⟩
  | sizing => exact Sizing.mono hlog h
  | starting => exact ⟨h.1.mono hlog, h.2⟩
  | requesting v point =>
    obtain ⟨hreq, ⟨hasks, hsizing⟩ | ⟨hfiling, htrans, e, hfile, hasks⟩⟩ := h
    · exact ⟨hreq.mono hlog, Or.inl ⟨hasks, hsizing.mono hlog⟩⟩
    · exact ⟨hreq.mono hlog,
        Or.inr ⟨hfiling.mono hlog, htrans, e, hfile.mono hlog, hasks⟩⟩
  | entering => exact ⟨h.1.mono hlog, h.2⟩
  | naming => exact ⟨h.1.mono hlog, h.2⟩
  | copying =>
    obtain ⟨hfiling, htrans, e, hfile⟩ := h
    exact ⟨hfiling.mono hlog, htrans, e, hfile.mono hlog⟩
  | budgeting v bytes =>
    obtain ⟨hfiling, htrans, e, hfile, hasks, hne, hle, hans⟩ := h
    exact ⟨hfiling.mono hlog, htrans, e, hfile.mono hlog, hasks, hne, hle,
      hans.mono hlog⟩
  | counting bytes =>
    obtain ⟨hfiling, htrans, e, hfile⟩ := h
    exact ⟨hfiling.mono hlog, htrans, e, hfile.mono hlog⟩
  | verifying =>
    obtain ⟨hfiling, htrans, e, hfile, hfull⟩ := h
    exact ⟨hfiling.mono hlog, htrans, e, hfile.mono hlog, hfull⟩
  | _ => trivial

end Mono

section Budget

variable {offered : List RemoteClipboardFileEntry}
  {log : List ReceiveEvent} {c : Content}

/-- The files written are entries before `next`. -/
theorem Filing.written_eq (h : c.Filing offered log) :
    c.written = (((c.entries.take c.next).filter fun e =>
      !e.directory).map (·.size)).sum := by
  unfold Content.written
  rw [← h.receipts, List.map_map]
  congr 1
  apply List.map_congr_left
  intro r hr
  exact (h.written r hr).full

theorem sum_filter_le (es : List RemoteClipboardFileEntry)
    (p : RemoteClipboardFileEntry → Bool) :
    ((es.filter p).map (·.size)).sum ≤ (es.map (·.size)).sum := by
  induction es with
  | nil => exact Nat.le_refl _
  | cons e es ih =>
    by_cases hp : p e = true
    · rw [List.filter_cons_of_pos hp]
      simp only [List.map_cons, List.sum_cons]
      omega
    · rw [List.filter_cons_of_neg hp]
      simp only [List.map_cons, List.sum_cons]
      omega

/-- There is room in the budget for the file in hand. -/
theorem Filing.room (h : c.Filing offered log)
    (he : c.entries[c.next]? = some e) : c.written + e.size ≤ c.limit := by
  obtain ⟨hlt, hget⟩ := List.getElem?_eq_some_iff.mp he
  have hsplit : c.entries
      = c.entries.take c.next ++ e :: c.entries.drop (c.next + 1) := by
    rw [← hget, List.getElem_cons_drop, List.take_append_drop]
  have hsum := congrArg (fun l => (l.map (·.size)).sum) hsplit
  simp only [List.map_append, List.sum_append, List.map_cons,
    List.sum_cons] at hsum
  have hle := sum_filter_le (c.entries.take c.next) fun e => !e.directory
  have hbudget := h.budget
  rw [h.written_eq]
  omega

end Budget

end Content

namespace ReceiveTask

/-- Whether the worker is past `work`. -/
def finished (s : ReceiveTask) : Bool :=
  match s.point with
  | .finishLocking | .finishChecking | .unlocking | .finishing | .ended =>
    true
  | _ => false

/-- What holds of a task wherever its worker stands. -/
structure Steady (log : List ReceiveEvent) (s : ReceiveTask) : Prop where
  completed : s.status.phase = .completed → s.complete = true
  limited : s.status.transferredBytes ≤ s.limit
  answer : s.responseReady = true → s.responseSuccess = true →
    s.pending.streamId ≠ 0 →
    .accepted s.pending.streamId true s.responseData ∈ log
  stream_pos : 0 < s.nextStream

/-- The invariant of a task. -/
structure Holds (offered : List RemoteClipboardFileEntry)
    (log : List ReceiveEvent) (s : ReceiveTask) : Prop
    extends Steady log s where
  point : s.content.PointHolds offered log s.point
  working : s.finished = false → s.complete = false
  complete : s.complete = true → s.content.Done offered log
  unended : s.point ≠ .ended → s.status.phase ≠ .completed

theorem Holds.mono {offered : List RemoteClipboardFileEntry}
    {log log' : List ReceiveEvent} {s : ReceiveTask} (hlog : log ⊆ log')
    (h : s.Holds offered log) : s.Holds offered log' :=
  { h with
    point := h.point.mono hlog
    complete := fun hc =>
      { h.complete hc with filing := (h.complete hc).filing.mono hlog }
    answer := fun hready hok h0 => hlog (h.answer hready hok h0) }

/-- The invariant, read against the task's own log. -/
def Good (offered : List RemoteClipboardFileEntry) (s : ReceiveTask) :
    Prop := s.Holds offered s.log

section Worker

variable {offered : List RemoteClipboardFileEntry} {s : ReceiveTask}

/-- Before the work is complete, only the point matters. -/
theorem Steady.good (h : s.Steady s.log) (hw : s.complete = false)
    (hpoint : s.content.PointHolds offered s.log s.point) :
    s.Good offered :=
  { h with
    point := hpoint
    working := fun _ => hw
    complete := by
      intro hc
      rw [hw] at hc
      cases hc
    unended := by
      intro _ hphase
      have hc := h.completed hphase
      rw [hw] at hc
      cases hc }

/-- `work` returns: nothing is claimed of the point. -/
theorem Steady.quit (h : s.Steady s.log) (hw : s.complete = false) :
    s.quit.Good offered :=
  Steady.good { h with } hw trivial

theorem Steady.fail (h : s.Steady s.log) (hw : s.complete = false)
    (error : String) : (s.fail error).Good offered :=
  Steady.good { h with } hw trivial

section Sizes

variable (h : s.Steady s.log) (hw : s.complete = false)
include h hw

theorem begin_good (hpoint : s.content.PointHolds offered s.log .queued)
    (env : WorkEnv) : (s.begin env).Good offered := by
  unfold begin
  split
  · exact h.quit hw
  · split
    · exact Steady.good { h with } hw hpoint.1
    · exact h.fail hw _
    · exact Steady.good { h with } hw trivial
    · exact Steady.good { h with } hw trivial

/-- A settled size joins the total, or exceeds the budget. -/
theorem addSize_good {settled done rest : List RemoteClipboardFileEntry}
    {offer : RemoteClipboardFileEntry}
    (hoffered : offered = settled ++ offer :: rest)
    (hentries : s.entries = done ++ e :: rest) (hlen : done.length = s.next)
    (hall : List.Forall₂ (SizedFrom s.log) settled done)
    (he : SizedFrom s.log offer e) (htotal : s.total = (done.map (·.size)).sum)
    (hbudget : s.total ≤ s.limit) (hreceipts : s.receipts = [])
    (hfiles : s.files = []) (htransferred : s.status.transferredBytes = 0) :
    (s.addSize e).Good offered := by
  have hlimit : s.limit ≤ 17179869184 := Nat.min_le_right _ _
  unfold addSize
  split
  · exact h.fail hw _
  · rename_i hfits
    rw [Bool.or_eq_true, not_or, decide_eq_true_eq] at hfits
    have hroom : (s.limit + 2 ^ 64 - s.total) % 2 ^ 64
        = s.limit - s.total := by omega
    have hsize : s.total + e.size ≤ s.limit := by omega
    have hmod : (s.total + e.size) % 2 ^ 64 = s.total + e.size :=
      Nat.mod_eq_of_lt (by omega)
    refine Steady.good { h with } hw ?_
    exact {
      entries := by
        refine ⟨settled ++ [offer], done ++ [e], rest, ?_, ?_, ?_, ?_, ?_⟩
        · rw [hoffered, List.append_cons]
        · exact hentries.trans (List.append_cons done e rest)
        · change _ = s.next + 1
          rw [List.length_append, hlen]
          rfl
        · exact List.rel_append hall (.cons he .nil)
        · change (s.total + e.size) % 2 ^ 64 = _
          rw [hmod, htotal, List.map_append, List.sum_append]
          simp
      budget := by
        change (s.total + e.size) % 2 ^ 64 ≤ s.limit
        rw [hmod]
        exact hsize
      receipts := hreceipts
      files := hfiles
      transferred := htransferred }

theorem size_good (hpoint : s.content.PointHolds offered s.log .sizing)
    (env : WorkEnv) : (s.size env).Good offered := by
  have hsizing : s.content.Sizing offered s.log := hpoint
  unfold size
  split
  · rename_i hnone
    split
    · refine Steady.good { h with } hw ⟨hsizing, ?_⟩
      exact List.getElem?_eq_none_iff.mp hnone
    · exact h.fail hw _
    · exact h.fail hw _
  · rename_i e hsome
    split
    · exact h.quit hw
    · split
      · rename_i hunknown
        rw [Bool.and_eq_true, Bool.not_eq_true', Bool.not_eq_true']
          at hunknown
        refine Steady.good { h with } hw ⟨trivial, Or.inl ⟨?_, hsizing⟩⟩
        exact ⟨rfl, e, hsome, rfl, hunknown.1, hunknown.2⟩
      · rename_i hknown
        obtain ⟨settled, done, rest, hoffered, hentries, hlen, hall,
          htotal⟩ := hsizing.entries
        change s.entries = done ++ rest at hentries
        change done.length = s.next at hlen
        rw [hentries, ← hlen, List.getElem?_append_right (Nat.le_refl _),
          Nat.sub_self] at hsome
        cases rest with
        | nil => cases hsome
        | cons e' rest =>
          cases hsome
          refine addSize_good h hw hoffered hentries hlen hall ?_ htotal
            hsizing.budget hsizing.receipts hsizing.files
            hsizing.transferred
          rw [SizedFrom, if_pos]
          rw [Bool.and_eq_true, not_and_or] at hknown
          simpa using hknown

theorem sized_good (hasks : s.content.AsksSize v)
    (hsizing : s.content.Sizing offered s.log)
    (hans : Answered s.log v bytes) : (s.sized bytes).Good offered := by
  obtain ⟨hquery, e, hsome, hindex, hknown, hdir⟩ := hasks
  change s.entries[s.next]? = some e at hsome
  unfold sized
  rw [hsome]
  dsimp only
  split
  · exact h.fail hw _
  · rename_i hlen8
    obtain ⟨settled, done, rest, hoffered, hentries, hlen, hall, htotal⟩ :=
      hsizing.entries
    change s.entries = done ++ rest at hentries
    change done.length = s.next at hlen
    have hsome' := hsome
    rw [hentries, ← hlen, List.getElem?_append_right (Nat.le_refl _),
      Nat.sub_self] at hsome'
    cases rest with
    | nil => cases hsome'
    | cons e' rest =>
      cases hsome'
      let e' : RemoteClipboardFileEntry :=
        { e with size := leNat bytes, sizeKnown := true }
      refine addSize_good (s := { s with
          entries := s.entries.set s.next e' })
        { h with } hw hoffered ?_ hlen hall ?_ htotal hsizing.budget
        hsizing.receipts hsizing.files hsizing.transferred
      · change s.entries.set s.next _ = _
        rw [hentries, ← hlen, List.set_append_right _ _ (Nat.le_refl _),
          Nat.sub_self]
        rfl
      · rw [SizedFrom, if_neg (by simp [hknown, hdir])]
        exact ⟨v, bytes, hquery, hindex, hans, not_not.mp hlen8, rfl⟩

end Sizes

section Requests

variable (h : s.Steady s.log) (hw : s.complete = false)
include h hw

theorem take_good (hans : Answered s.log v s.responseData)
    (hasks : s.content.AsksSize v ∧ s.content.Sizing offered s.log
      ∨ s.content.Filing offered s.log
        ∧ s.content.transferred = s.content.written + s.content.offset
        ∧ ∃ e, s.content.InFile s.log e ∧ s.content.AsksRange e v)
    (hpending : s.pending = {}) : (s.take v).Good offered := by
  let s' : ReceiveTask := { s with responseData := [] }
  have hsteady : s'.Steady s'.log := { h with
    answer := by
      intro _ _ h0
      exact absurd (congrArg RdpClipboardFileRequest.streamId hpending) h0 }
  unfold take
  dsimp only
  rcases hasks with ⟨hsize, hsizing⟩ | ⟨hfiling, htrans, e, hfile, hrange⟩
  · rw [if_pos hsize.1]
    exact sized_good (s := s') hsteady hw hsize hsizing hans
  · rw [if_neg (by rw [hrange.1]; decide)]
    split
    · exact Steady.fail (s := s') hsteady hw _
    · rename_i hok
      rw [not_or, not_lt] at hok
      exact Steady.good (s := { s' with point := .budgeting v s.responseData })
        { hsteady with } hw ⟨hfiling, htrans, e, hfile, hrange, hok.1, hok.2, hans⟩

theorem request_good {point : RequestPoint}
    (hpoint : s.content.PointHolds offered s.log (.requesting v point))
    (hp : s.point = .requesting v point) (env : WorkEnv) :
    (s.request env v point).Good offered := by
  obtain ⟨hreq, hasks⟩ := hpoint
  cases point with
  | admitting =>
    let s' : ReceiveTask := { s with
      nextStream := s.nextStream + env.skipped + 1 }
    have hskip : s'.Steady s'.log :=
      { h with stream_pos := Nat.succ_pos _ }
    unfold request
    dsimp only
    split
    · exact Steady.fail (s := s') hskip hw _
    · split
      · exact Steady.quit (s := s') hskip hw
      · split
        · exact Steady.fail (s := s') hskip hw _
        · have hlog : s.log ⊆ s.log ++ [ReceiveEvent.asked { v with
              streamId := s.nextStream + env.skipped
              clipDataId := s.clipDataId }] :=
            List.subset_append_left _ _
          have hpos : s.nextStream + env.skipped ≠ 0 := by
            have hpos := h.stream_pos
            omega
          refine Steady.good ⟨h.completed, h.limited, ?_, Nat.succ_pos _⟩
            hw ⟨⟨rfl, hpos⟩, ?_⟩
          · intro hready
            cases hready
          · rcases hasks with ⟨hsize, hsizing⟩ |
              ⟨hfiling, htrans, e, hfile, hrange⟩
            · exact Or.inl ⟨hsize, { hsizing.mono hlog with }⟩
            · exact Or.inr ⟨{ hfiling.mono hlog with }, htrans, e,
                { hfile.mono hlog with }, hrange⟩
  | sendLocking => exact Steady.good { h with } hw ⟨hreq, hasks⟩
  | sendChecking =>
    unfold request
    dsimp only
    split
    · refine Steady.good { h with } hw ⟨⟨hreq, ?_⟩, hasks⟩
      intro hsent
      cases hsent
    · exact Steady.good { h with } hw ⟨hreq, hasks⟩
  | sending =>
    have hlog : s.log ⊆ s.log ++ [ReceiveEvent.sent v] := List.subset_append_left _ _
    have hpoint' : s.content.PointHolds offered (s.log ++ [ReceiveEvent.sent v])
        (.requesting v (.sendLeaving env.sent)) := by
      refine ⟨⟨hreq, fun _ => by simp⟩, ?_⟩
      rcases hasks with ⟨hsize, hsizing⟩ |
        ⟨hfiling, htrans, e, hfile, hrange⟩
      · exact Or.inl ⟨hsize, hsizing.mono hlog⟩
      · exact Or.inr ⟨hfiling.mono hlog, htrans, e, hfile.mono hlog,
          hrange⟩
    exact Steady.good { h with
      answer := fun hready hok h0 => hlog (h.answer hready hok h0) }
      hw hpoint'
  | sendLeaving sent =>
    unfold request
    dsimp only
    split
    · rename_i hsent
      exact Steady.good { h with } hw ⟨⟨hreq.1, hreq.2 hsent⟩, hasks⟩
    · exact Steady.fail (s := { s with sendHeld := false }) { h with } hw _
  | waiting =>
    have hlog : s.log ⊆ s.log ++ [ReceiveEvent.cleared] := List.subset_append_left _ _
    let s' : ReceiveTask := { s with
      pending := {}, log := s.log ++ [.cleared] }
    have hclear : s'.Steady s'.log := { h with
      answer := fun _ _ h0 => absurd rfl h0 }
    unfold request
    dsimp only
    split
    · split
      · exact Steady.fail (s := s') hclear hw _
      · exact Steady.good h hw (by rw [hp]; exact ⟨hreq, hasks⟩)
    · rename_i hwake
      split
      · exact h.quit hw
      · rename_i hlive
        split
        · rename_i hok
          have hready : s.responseReady = true := by
            rw [Bool.not_eq_true] at hlive
            simpa [hlive] using hwake
          obtain ⟨⟨hpending, h0⟩, hsent⟩ := hreq
          change s.pending = v at hpending
          have haccepted := h.answer hready hok (hpending ▸ h0)
          rw [hpending] at haccepted
          refine take_good (s := s') hclear hw ⟨hlog hsent, hlog haccepted⟩ ?_ rfl
          rcases hasks with ⟨hsize, hsizing⟩ |
            ⟨hfiling, htrans, e, hfile, hrange⟩
          · exact Or.inl ⟨hsize, { hsizing.mono hlog with }⟩
          · exact Or.inr ⟨{ hfiling.mono hlog with }, htrans, e,
              { hfile.mono hlog with }, hrange⟩
        · exact Steady.fail (s := s') hclear hw _

end Requests

section Files

theorem take_succ (he : s.entries[s.next]? = some e) :
    s.entries.take (s.next + 1) = s.entries.take s.next ++ [e] := by
  rw [List.take_add_one, he]
  rfl

variable (h : s.Steady s.log) (hw : s.complete = false)
include h hw

theorem receiving_good
    (hpoint : s.content.PointHolds offered s.log .starting) :
    s.receiving.Good offered := by
  obtain ⟨hsizing, hall⟩ := hpoint
  obtain ⟨settled, done, rest, hoffered, hentries, hlen, hsized, htotal⟩ :=
    hsizing.entries
  change s.entries = done ++ rest at hentries
  change s.entries.length ≤ s.next at hall
  change done.length = s.next at hlen
  rw [hentries, List.length_append] at hall
  have hrest : rest = [] := List.eq_nil_of_length_eq_zero (by omega)
  rw [hrest, List.append_nil] at hoffered hentries
  have hreceipts : s.receipts = [] := hsizing.receipts
  unfold receiving
  split
  · exact h.quit hw
  · refine Steady.good { h with completed := ?_ } hw ⟨?_, ?_⟩
    · intro hphase
      cases hphase
    · exact {
        sized := by
          rw [hoffered]
          exact hentries ▸ hsized
        budget := by
          have hbudget := hsizing.budget
          rw [htotal, ← hentries] at hbudget
          exact hbudget
        next_le := Nat.zero_le _
        receipts := by
          change s.receipts.map _ = _
          rw [hreceipts]
          rfl
        written := by
          intro r hr
          change r ∈ s.receipts at hr
          rw [hreceipts] at hr
          cases hr
        files := by
          change s.files = s.receipts.map _
          rw [hreceipts]
          exact hsizing.files }
    · change s.status.transferredBytes = (s.receipts.map _).sum
      rw [hreceipts]
      exact hsizing.transferred

theorem enter_good (hpoint : s.content.PointHolds offered s.log .entering)
    (env : WorkEnv) : (s.enter env).Good offered := by
  obtain ⟨hfiling, htrans⟩ := hpoint
  unfold enter
  split
  · exact h.quit hw
  · split
    · rename_i hnext
      exact Steady.good { h with } hw ⟨hfiling, htrans, hnext⟩
    · rename_i hnext
      split
      · exact h.fail hw _
      · exact { h with
          completed := fun _ => rfl
          point := trivial
          working := by
            intro hf
            cases hf
          complete := fun _ => {
            filing := { hfiling with }
            all := Nat.le_antisymm hfiling.next_le (not_lt.mp hnext)
            transferred := htrans }
          unended := by
            intro _ hphase
            have hc := h.completed hphase
            rw [hw] at hc
            cases hc }

/-- A directory is done: the files stay as they are. -/
theorem push_directory (he : s.entries[s.next]? = some e)
    (hdir : e.directory = true) (hfiling : s.content.Filing offered s.log)
    (htrans : s.content.transferred = s.content.written) :
    (s.push e).Good offered := by
  have hlt := (List.getElem?_eq_some_iff.mp he).1
  refine Steady.good { h with } hw ⟨{ hfiling with
    next_le := hlt
    receipts := ?_ }, htrans⟩
  change s.receipts.map _ = (s.entries.take (s.next + 1)).filter _
  rw [take_succ he, List.filter_append, List.filter_cons_of_neg
    (by simp [hdir]), List.filter_nil, List.append_nil]
  exact hfiling.receipts

theorem name_good (hpoint : s.content.PointHolds offered s.log .naming)
    (env : WorkEnv) : (s.name env).Good offered := by
  obtain ⟨hfiling, htrans, hnext⟩ := hpoint
  change s.next < s.entries.length at hnext
  have he : s.entries[s.next]? = some s.entries[s.next] :=
    List.getElem?_eq_getElem hnext
  generalize s.entries[s.next] = e at he
  let s' : ReceiveTask := { s with
    status := { s.status with currentIndex := e.index } }
  have h' : s'.Steady s'.log := { h with }
  unfold name
  rw [he]
  dsimp only
  split
  · rename_i hdir
    split
    · exact Steady.fail (s := s') h' hw _
    · exact push_directory (s := s') h' hw he hdir { hfiling with } htrans
  · rename_i hdir
    split
    · refine Steady.good (s := { s' with
        offset := 0, partialFile := [], answers := [], point := .copying })
        { h' with } hw ⟨{ hfiling with }, htrans, e, ?_⟩
      exact {
        current := he
        file := Bool.not_eq_true _ ▸ hdir
        answers := trivial
        content := rfl
        length := rfl
        offset_le := Nat.zero_le _ }
    · exact Steady.fail (s := s') h' hw _
    · exact Steady.fail (s := s') h' hw _

theorem copy_good (hpoint : s.content.PointHolds offered s.log .copying) :
    s.copy.Good offered := by
  obtain ⟨hfiling, htrans, e, hfile⟩ := hpoint
  have he : s.entries[s.next]? = some e := hfile.current
  unfold copy
  rw [he]
  dsimp only
  split
  · exact h.quit hw
  · split
    · rename_i hlt
      exact Steady.good { h with } hw ⟨trivial, Or.inr ⟨hfiling, htrans, e,
        hfile, rfl, rfl, rfl, rfl, hlt⟩⟩
    · rename_i hge
      exact Steady.good { h with } hw ⟨hfiling, htrans, e, hfile,
        Nat.le_antisymm hfile.offset_le (not_lt.mp hge)⟩

theorem store_good
    (hpoint : s.content.PointHolds offered s.log (.budgeting v bytes))
    (env : WorkEnv) : (s.store env v bytes).Good offered := by
  obtain ⟨hfiling, htrans, e, hfile, ⟨hquery, hindex, hoffset, hreq, hlt⟩,
    hne, hle, hans⟩ := hpoint
  change s.status.transferredBytes = s.content.written + s.offset at htrans
  unfold store
  split
  · exact h.fail hw _
  · dsimp only
    split
    · rename_i hok
      have hlen : s.partialFile.length = s.offset := hfile.length
      have hwrite : (writeAll env.pwrites s.partialFile bytes s.offset).1
          = s.partialFile ++ bytes := by
        rw [← hlen] at hok ⊢
        exact writeAll_end (Prod.ext rfl hok)
      have hroom : bytes.length ≤ e.size - s.offset := by
        rw [hreq] at hle
        exact hle.trans (Nat.min_le_right _ _)
      change s.offset < e.size at hlt
      have hcontent : s.partialFile = (s.answers.map (·.2)).flatten :=
        hfile.content
      refine Steady.good { h with } hw ⟨{ hfiling with }, ?_, e, ?_⟩
      · change s.status.transferredBytes + bytes.length
          = s.content.written + (s.offset + bytes.length)
        omega
      · exact {
          current := hfile.current
          file := hfile.file
          answers := by
            apply hfile.answers.snoc
            have hstart : 0 + ((s.answers.map (·.2)).flatten).length
                = s.offset := by
              rw [Nat.zero_add, ← hcontent, hlen]
            change Consecutive s.log e
              (0 + ((s.answers.map (·.2)).flatten).length) [(v, bytes)]
            rw [hstart]
            exact ⟨⟨hquery, hindex, hoffset, hreq, hne, hle, hans⟩, trivial⟩
          content := by
            change (writeAll env.pwrites s.partialFile bytes s.offset).1
              = ((s.answers ++ [(v, bytes)]).map (·.2)).flatten
            rw [hwrite, hcontent]
            simp
          length := by
            change (writeAll env.pwrites s.partialFile bytes s.offset).1.length
              = s.offset + bytes.length
            rw [hwrite, List.length_append, hlen]
          offset_le := by
            change s.offset + bytes.length ≤ e.size
            omega }
    · exact Steady.fail (s := { s with
        partialFile := (writeAll env.pwrites s.partialFile bytes s.offset).1 })
        { h with } hw _

theorem count_good {bytes : Nat}
    (hpoint : s.content.PointHolds offered s.log (.counting bytes)) :
    (s.count bytes).Good offered := by
  obtain ⟨hfiling, htrans, e, hfile⟩ := hpoint
  change s.status.transferredBytes + bytes = s.content.written + s.offset
    at htrans
  have hroom := hfiling.room hfile.current
  have hoffset : s.offset ≤ e.size := hfile.offset_le
  change s.content.written + e.size ≤ s.limit at hroom
  refine Steady.good { h with limited := ?_ } hw
    ⟨{ hfiling with }, htrans, e, { hfile with }⟩
  change s.status.transferredBytes + bytes ≤ s.limit
  omega

theorem verify_good
    (hpoint : s.content.PointHolds offered s.log .verifying)
    (env : WorkEnv) : (s.verify env).Good offered := by
  obtain ⟨hfiling, htrans, e, hfile, hfull⟩ := hpoint
  have he : s.entries[s.next]? = some e := hfile.current
  have hlt := (List.getElem?_eq_some_iff.mp he).1
  change s.status.transferredBytes = s.content.written + s.offset at htrans
  let s₁ : ReceiveTask := { s with
    status := { s.status with phase := .verifying } }
  have h₁ : s₁.Steady s₁.log := { h with
    completed := by
      intro hphase
      cases hphase }
  unfold verify
  rw [he]
  dsimp only
  split
  · exact Steady.fail (s := s₁) h₁ hw _
  · rename_i hlen
    rw [not_or, not_not] at hlen
    split
    · exact Steady.fail (s := s₁) h₁ hw _
    · let s₂ : ReceiveTask := { s₁ with
        files := s.files ++ [(e.relativeName, s.partialFile)] }
      split
      · exact Steady.fail (s := s₂) { h₁ with } hw _
      · let receipt : FileReceipt :=
          { entry := e, answers := s.answers, content := s.partialFile }
        let s₃ : ReceiveTask := { s₂ with
          receipts := s.receipts ++ [receipt] }
        have hwritten : Written s.log receipt :=
          ⟨hfile.answers, hfile.content, hlen.2⟩
        refine Steady.good (s := s₃.push e) { h₁ with } hw ⟨?_, ?_⟩
        · exact { hfiling with
            next_le := hlt
            receipts := by
              change (s.receipts ++ [receipt]).map _
                = (s.entries.take (s.next + 1)).filter _
              rw [take_succ he, List.filter_append,
                List.filter_cons_of_pos (by simp [hfile.file]),
                List.filter_nil, List.map_append]
              exact congrArg (· ++ [e]) hfiling.receipts
            written := by
              intro r hr
              rcases List.mem_append.mp hr with hr | hr
              · exact hfiling.written r hr
              · rw [List.mem_singleton.mp hr]
                exact hwritten
            files := by
              change s.files ++ [(e.relativeName, s.partialFile)]
                = (s.receipts ++ [receipt]).map _
              rw [List.map_append]
              exact congrArg (· ++ [(e.relativeName, s.partialFile)])
                hfiling.files }
        · change s.status.transferredBytes
            = ((s.receipts ++ [receipt]).map (·.content.length)).sum
          have hwrote : s.content.written
              = (s.receipts.map (·.content.length)).sum := rfl
          have hoffset : s.partialFile.length = s.offset := hfile.length
          rw [List.map_append, List.sum_append, ← hwrote, htrans, ← hoffset]
          simp [receipt]

end Files

section Finish

variable (h : s.Good offered)
include h

theorem throw_good (hw : s.complete = false) : s.throw.Good offered :=
  Steady.fail (s := { s with sendHeld := false }) { h with } hw _

/-- A step of `work` may throw before it does anything. -/
theorem thrown_good (hw : s.complete = false) {env : WorkEnv}
    {s' : ReceiveTask} (hs' : s'.Good offered) :
    (if env.thrown then s.throw else s').Good offered := by
  split
  · exact throw_good h hw
  · exact hs'

theorem finishCheck_good (hp : s.point = .finishChecking) (env : WorkEnv) :
    (s.finishCheck env).Good offered := by
  have hphase : s.status.phase ≠ .completed := by
    apply h.unended
    rw [hp]
    intro hended
    cases hended
  unfold finishCheck
  split
  · exact Steady.good { h.toSteady with
      completed := fun hc => absurd hc hphase } rfl trivial
  · exact { h with
      point := trivial
      working := by
        intro hf
        cases hf
      unended := fun _ => hphase }

theorem unlock_good (hp : s.point = .unlocking) (env : WorkEnv) :
    (s.unlock env).Good offered := by
  have hphase : s.status.phase ≠ .completed := by
    apply h.unended
    rw [hp]
    intro hended
    cases hended
  have hworking : (true : Bool) = false → s.complete = false := by
    intro hf
    cases hf
  have hnote : s.Holds offered (s.log ++ [ReceiveEvent.unlocked s.clipDataId]) :=
    h.mono (List.subset_append_left _ _)
  unfold unlock
  dsimp only
  split
  · split
    · exact { hnote with
        point := trivial
        working := hworking
        unended := fun _ => hphase }
    · exact { hnote with
        point := trivial
        working := hworking
        unended := fun _ => hphase }
  · exact { h with
      point := trivial
      working := hworking
      unended := fun _ => hphase }

theorem finish_good : s.finish.Good offered := by
  have hclear : s.Holds offered (s.log ++ [ReceiveEvent.cleared]) :=
    h.mono (List.subset_append_left _ _)
  exact {
    completed := by
      change (if s.complete = true ∧ ¬ s.cancelled = true
        then ReceivePhase.completed
        else if s.cancelled then .cancelled else .failed) = _ → _
      split
      · rename_i hdone
        exact fun _ => hdone.1
      · split <;> (intro hphase; cases hphase)
    limited := hclear.limited
    answer := fun _ _ h0 => absurd rfl h0
    stream_pos := h.stream_pos
    point := trivial
    working := by
      intro hf
      cases hf
    complete := fun hc =>
      { hclear.complete hc with
        filing := { (hclear.complete hc).filing with } }
    unended := fun hp => absurd rfl hp }

theorem work_good (env : WorkEnv) : (s.work env).Good offered := by
  have hpoint := h.point
  have hworking := h.working
  unfold work
  cases hp : s.point with
  | finishLocking =>
    exact { h with
      point := trivial
      working := by
        intro hf
        cases hf
      unended := by
        intro _
        apply h.unended
        rw [hp]
        intro hended
        cases hended }
  | finishChecking => exact finishCheck_good h hp env
  | unlocking => exact unlock_good h hp env
  | finishing => exact finish_good h
  | ended => exact h
  | requesting v point =>
    rw [hp] at hpoint
    have hw : s.complete = false := hworking (by rw [finished, hp])
    cases point with
    | sending =>
      dsimp only
      split
      · have hlog : s.log ⊆ s.log ++ [ReceiveEvent.sent v] :=
          List.subset_append_left _ _
        have hsent : (s.note (.sent v)).Good offered :=
          { h.mono hlog with }
        exact throw_good hsent hw
      · exact request_good h.toSteady hw hpoint hp env
    | _ =>
      exact thrown_good h hw (request_good h.toSteady hw hpoint hp env)
  | queued =>
    rw [hp] at hpoint
    have hw : s.complete = false := hworking (by rw [finished, hp])
    exact thrown_good h hw (begin_good h.toSteady hw hpoint env)
  | sizing =>
    rw [hp] at hpoint
    have hw : s.complete = false := hworking (by rw [finished, hp])
    exact thrown_good h hw (size_good h.toSteady hw hpoint env)
  | starting =>
    rw [hp] at hpoint
    have hw : s.complete = false := hworking (by rw [finished, hp])
    exact thrown_good h hw (receiving_good h.toSteady hw hpoint)
  | entering =>
    rw [hp] at hpoint
    have hw : s.complete = false := hworking (by rw [finished, hp])
    exact thrown_good h hw (enter_good h.toSteady hw hpoint env)
  | naming =>
    rw [hp] at hpoint
    have hw : s.complete = false := hworking (by rw [finished, hp])
    exact thrown_good h hw (name_good h.toSteady hw hpoint env)
  | copying =>
    rw [hp] at hpoint
    have hw : s.complete = false := hworking (by rw [finished, hp])
    exact thrown_good h hw (copy_good h.toSteady hw hpoint)
  | budgeting v bytes =>
    rw [hp] at hpoint
    have hw : s.complete = false := hworking (by rw [finished, hp])
    exact thrown_good h hw (store_good h.toSteady hw hpoint env)
  | counting bytes =>
    rw [hp] at hpoint
    have hw : s.complete = false := hworking (by rw [finished, hp])
    exact thrown_good h hw (count_good h.toSteady hw hpoint)
  | verifying =>
    rw [hp] at hpoint
    have hw : s.complete = false := hworking (by rw [finished, hp])
    exact thrown_good h hw (verify_good h.toSteady hw hpoint env)

theorem response_good (streamId : Nat) (success : Bool)
    (data : List UInt8) : (s.response streamId success data).Good offered := by
  unfold response
  split
  · exact h
  · rename_i hopen
    simp only [Bool.or_eq_true, not_or, decide_eq_true_eq, not_not]
      at hopen
    obtain ⟨⟨_, hid⟩, _⟩ := hopen
    have hlog : s.Holds offered (s.log ++ [ReceiveEvent.accepted streamId
        (success && decide (data.length ≤ s.pending.requested)) data]) :=
      h.mono (List.subset_append_left _ _)
    exact { hlog with
      answer := by
        intro _ hok _
        change (success && decide (data.length ≤ s.pending.requested))
          = true at hok
        apply List.mem_append_right
        change ReceiveEvent.accepted s.pending.streamId true
            (if success && decide (data.length ≤ s.pending.requested)
              then data else [])
          ∈ [ReceiveEvent.accepted streamId
            (success && decide (data.length ≤ s.pending.requested)) data]
        rw [hok, hid, if_pos rfl]
        exact List.mem_singleton_self _ }

theorem cancel_good (reason : String) :
    (s.cancel reason).Good offered := by
  unfold cancel
  split
  · exact h
  · split
    · exact h
    · have hlog : s.Holds offered (s.log ++ [ReceiveEvent.cancelled]) :=
        h.mono (List.subset_append_left _ _)
      exact { hlog with
        completed := by
          intro hphase
          cases hphase
        unended := by
          intro _ hphase
          cases hphase }

theorem Good.step (op : ReceiveOp) : (s.step op).Good offered := by
  cases op with
  | work env => exact work_good h env
  | response streamId success data =>
    exact response_good h streamId success data
  | cancel reason => exact cancel_good h reason
  | offerChanged sequence =>
    change (s.offerChanged sequence).Good offered
    unfold offerChanged
    split
    · exact { h with }
    · exact h
  | offerCancel =>
    change (s.offerCancel).Good offered
    unfold offerCancel
    split
    · exact h
    · exact cancel_good (s := { s with
        offerCancels := s.offerCancels - 1 }) { h with } _

end Finish

/-- The state `start` leaves. -/
theorem start_good {maxTotalBytes taskId : Nat}
    {offer : RemoteClipboardFileOffer} {selected : List Nat}
    {clipDataId : Nat} {hasUnlocker : Bool} {taken : Nat}
    (h : start maxTotalBytes taskId offer selected clipDataId hasUnlocker
      taken = some s) :
    s.Good (offer.entries.filter (included offer selected)) := by
  unfold start at h
  split at h
  · cases h
  · split at h
    · cases h
    · dsimp only at h
      split at h
      · cases h
      · split at h
        · cases h
        · cases h
          refine Steady.good ⟨?_, Nat.zero_le _, ?_, Nat.succ_pos _⟩ rfl
            ⟨?_, rfl⟩
          · intro hphase
            cases hphase
          · intro hready
            cases hready
          · exact {
              entries := ⟨[], [], _, rfl, rfl, rfl, .nil, rfl⟩
              budget := Nat.zero_le _
              receipts := rfl
              files := rfl
              transferred := rfl }

end Worker

end ReceiveTask

end RemoteDesk.Clipboard
