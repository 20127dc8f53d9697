/-
`RdpClipboardState` (rdp_clipboard_state.h): what the remote clipboard
offers, and the one request for its contents that may be outstanding.

# What is modelled

The adapter calls every member under its clipboard mutex, so one call is
one transition. `sequence` numbers are `Nat`: the source's `uint64_t`
does not wrap. The snapshot's `kind` string is an enumeration.

# The exchange

A response carries no id. `Exchange` is the state with the requests the
adapter has issued on the carrier and the peer has not yet answered: a
call that returns a sequence number has issued the pending request, and
`requestFiles` and `requestRich` issue their own when nothing was
pending before (`sendNow`). The peer answers the oldest one, once. A new
carrier has none.

# Results

`responses_attributed`: over every run, one request at most is out, text
is marked ready only by the answer to a text request for that snapshot,
no other answer changes the snapshot, and a carrier with nothing out has
nothing left to ask for.
-/
import RemoteDesk.Lib.Runs

namespace RemoteDesk.Clipboard

open Lib

-- =================================== model

/-- `ClipboardSnapshot::kind`. -/
inductive ClipboardKind
  | none
  | files
  | rich
  | text
  | unsupported
deriving DecidableEq, Repr

structure ClipboardSnapshot where
  sequence : Nat := 0
  kind : ClipboardKind := .none
  text : String := ""
  ready : Bool := false
deriving DecidableEq, Repr

/-- `RdpClipboardFormatRequest`; sequence 0 is no request. -/
structure FormatRequest where
  sequence : Nat := 0
  formatId : Nat := 0
  files : Bool := false
  richRequestId : Nat := 0
deriving DecidableEq, Repr

/-- `CF_UNICODETEXT`. -/
def textFormat : Nat := 13

def maxQueuedRich : Nat := 5

structure ClipboardState where
  snapshot : ClipboardSnapshot := {}
  pending : FormatRequest := {}
  queuedFile : FormatRequest := {}
  queuedRich : List FormatRequest := []
deriving DecidableEq, Repr

namespace ClipboardState

/-- The loop of `requestLatest`: the first rich request that is still
current, and what is queued behind it. -/
def nextRich (sequence : Nat) :
    List FormatRequest → Option FormatRequest × List FormatRequest
  | [] => (none, [])
  | next :: rest =>
    if next.sequence = sequence then (some next, rest)
    else nextRich sequence rest

def requestLatest (s : ClipboardState) : ClipboardState × Nat :=
  if s.pending.sequence ≠ 0 then (s, 0)
  else if s.queuedFile.sequence = s.snapshot.sequence
      ∧ s.snapshot.kind = .files then
    ({ s with pending := s.queuedFile, queuedFile := {} },
      s.queuedFile.sequence)
  else
    match nextRich s.snapshot.sequence s.queuedRich with
    | (some next, queuedRich) =>
      ({ s with pending := next, queuedRich }, next.sequence)
    | (none, queuedRich) =>
      let s := { s with queuedRich }
      if s.snapshot.kind ≠ .text ∨ s.snapshot.ready = true then (s, 0)
      else
        ({ s with pending :=
          { sequence := s.snapshot.sequence, formatId := textFormat } },
          s.snapshot.sequence)

/-- The snapshot of a new format list, with nothing queued for it. -/
def offer (s : ClipboardState) (kind : ClipboardKind) : ClipboardState :=
  { s with
    snapshot := {
      sequence := s.snapshot.sequence + 1
      kind
      ready := kind ≠ .text }
    queuedFile := {}
    queuedRich := [] }

def formatList (s : ClipboardState) (text files empty rich : Bool) :
    ClipboardState × Nat :=
  (s.offer (if files then .files else if rich then .rich
    else if text then .text else if empty then .none
    else .unsupported)).requestLatest

def response (s : ClipboardState) (valid : Bool) (text : String) :
    ClipboardState × Nat :=
  let completed := s.pending.sequence
  let wasText := !s.pending.files && s.pending.richRequestId == 0
  let s := { s with pending := {} }
  if completed ≠ 0 ∧ completed = s.snapshot.sequence
      ∧ s.snapshot.kind = .text ∧ wasText = true then
    let s := { s with snapshot := { s.snapshot with
      ready := valid, text := if valid then text else s.snapshot.text } }
    if s.queuedRich = [] then (s, 0) else s.requestLatest
  else if completed ≠ 0 then s.requestLatest
  else (s, 0)

/-- A failed send may have reached the transport: the barrier stays. -/
def requestFailed (s : ClipboardState) (_sequence : Nat) : ClipboardState :=
  s

def invalidate (s : ClipboardState) (newCarrier : Bool) : ClipboardState :=
  { snapshot := { sequence := s.snapshot.sequence + 1 }
    pending := if newCarrier then {} else s.pending }

def cancelQueuedFileRequest (s : ClipboardState) (sequence : Nat) :
    ClipboardState :=
  if s.queuedFile.sequence = sequence then { s with queuedFile := {} }
  else s

def requestFiles (s : ClipboardState) (sequence formatId : Nat) :
    ClipboardState × Bool :=
  if sequence = 0 ∨ formatId = 0 ∨ s.snapshot.sequence ≠ sequence
      ∨ s.snapshot.kind ≠ .files then (s, false)
  else if s.pending.sequence = sequence ∧ s.pending.files = true then
    (s, true)
  else
    let s := { s with queuedFile := { sequence, formatId, files := true } }
    (s.requestLatest.1, true)

def requestRich (s : ClipboardState) (sequence formatId requestId : Nat) :
    ClipboardState × Bool :=
  if sequence = 0 ∨ sequence ≠ s.snapshot.sequence ∨ formatId = 0
      ∨ requestId = 0 then (s, false)
  else
    -- a replaced request of this format must still drain if already sent
    let s := { s with
      queuedRich := s.queuedRich.filter (·.formatId ≠ formatId) }
    if maxQueuedRich ≤ s.queuedRich.length then (s, false)
    else
      let next : FormatRequest :=
        { sequence, formatId, richRequestId := requestId }
      let s := { s with queuedRich := s.queuedRich ++ [next] }
      (s.requestLatest.1, true)

def cancelQueuedRichRequest (s : ClipboardState) (requestId : Nat) :
    ClipboardState :=
  { s with
    queuedRich := s.queuedRich.filter (·.richRequestId ≠ requestId) }

end ClipboardState

-- ================================ exchange

inductive ExchangeEvent
  | issued (request : FormatRequest)
  | answered (request : FormatRequest) (valid : Bool) (text : String)
deriving DecidableEq, Repr

structure Exchange where
  state : ClipboardState := {}
  /-- Issued on this carrier and not yet answered. -/
  wire : List FormatRequest := []
  log : List ExchangeEvent := []
deriving DecidableEq, Repr

inductive ExchangeOp
  | formatList (text files empty rich : Bool)
  | response (valid : Bool) (text : String)
  | requestFailed (sequence : Nat)
  | invalidate (newCarrier : Bool)
  | cancelQueuedFileRequest (sequence : Nat)
  | requestFiles (sequence formatId : Nat)
  | requestRich (sequence formatId requestId : Nat)
  | cancelQueuedRichRequest (requestId : Nat)
deriving DecidableEq, Repr

namespace Exchange

def issue (s : Exchange) (request : FormatRequest) : Exchange :=
  { s with
    wire := s.wire ++ [request], log := s.log ++ [.issued request] }

/-- The adapter sends the pending request when a call returned its
sequence number. -/
def issueIf (s : Exchange) (sequence : Nat) : Exchange :=
  if sequence ≠ 0 then s.issue s.state.pending else s

def step (s : Exchange) : ExchangeOp → Exchange
  | .formatList text files empty rich =>
    let (state, sequence) := s.state.formatList text files empty rich
    issueIf { s with state } sequence
  | .response valid text =>
    match s.wire with
    | [] => s
    | request :: wire =>
      let (state, sequence) := s.state.response valid text
      let log := s.log ++ [.answered request valid text]
      issueIf { state, wire, log } sequence
  | .requestFailed sequence =>
    { s with state := s.state.requestFailed sequence }
  | .invalidate newCarrier =>
    { s with
      state := s.state.invalidate newCarrier
      wire := if newCarrier then [] else s.wire }
  | .cancelQueuedFileRequest sequence =>
    { s with state := s.state.cancelQueuedFileRequest sequence }
  | .requestFiles sequence formatId =>
    let sendNow := s.state.pending.sequence = 0
    let (state, accepted) := s.state.requestFiles sequence formatId
    let s := { s with state }
    if accepted ∧ sendNow then
      s.issue { sequence, formatId, files := true }
    else s
  | .requestRich sequence formatId requestId =>
    let sendNow := s.state.pending.sequence = 0
    let (state, accepted) :=
      s.state.requestRich sequence formatId requestId
    let s := { s with state }
    if accepted ∧ sendNow then
      s.issue { sequence, formatId, richRequestId := requestId }
    else s
  | .cancelQueuedRichRequest requestId =>
    { s with state := s.state.cancelQueuedRichRequest requestId }

end Exchange

-- ================================ requests

/-- A request for the text of a snapshot. -/
def FormatRequest.IsText (request : FormatRequest) : Prop :=
  request.files = false ∧ request.richRequestId = 0

variable {request : FormatRequest} {rest : List FormatRequest}

namespace ClipboardState

/-- What is queued is for the present snapshot. -/
structure Queued (s : ClipboardState) : Prop where
  live : s.snapshot.sequence = 0 → s.snapshot.kind = .none
  file : s.queuedFile.sequence = 0
    ∨ s.queuedFile.sequence = s.snapshot.sequence
      ∧ s.snapshot.kind = .files
  rich : ∀ r ∈ s.queuedRich,
    r.sequence = s.snapshot.sequence ∧ r.sequence ≠ 0

/-- Nothing is queued. -/
def Drained (s : ClipboardState) : Prop :=
  s.queuedFile.sequence = 0 ∧ s.queuedRich = []

variable {s : ClipboardState}

theorem nextRich_cons {sequence : Nat} {next : FormatRequest}
    (h : next.sequence = sequence) :
    nextRich sequence (next :: rest) = (some next, rest) := by
  rw [nextRich, if_pos h]

/-- With nothing pending, `requestLatest` makes the oldest queued request
the pending one. It returns 0 only when nothing is left to ask for. -/
theorem requestLatest_idle (h : s.Queued) (hp : s.pending.sequence = 0) :
    s.requestLatest.1.snapshot = s.snapshot
      ∧ s.requestLatest.1.Queued
      ∧ s.requestLatest.1.pending.sequence = s.requestLatest.2
      ∧ (s.requestLatest.2 = 0 → s.requestLatest.1.Drained
        ∧ (s.snapshot.kind = .text → s.snapshot.ready = true)) := by
  unfold requestLatest
  rw [if_neg (not_not.mpr hp)]
  by_cases hfile : s.queuedFile.sequence = s.snapshot.sequence
      ∧ s.snapshot.kind = .files
  · rw [if_pos hfile]
    refine ⟨rfl, ⟨h.live, Or.inl rfl, h.rich⟩, rfl, fun hzero => ?_⟩
    have hkind := h.live (hfile.1.symm.trans hzero)
    rw [hfile.2] at hkind
    cases hkind
  · rw [if_neg hfile]
    have hnofile : s.queuedFile.sequence = 0 :=
      h.file.resolve_right hfile
    cases hrich : s.queuedRich with
    | cons next rest =>
      have hnext := h.rich next (by rw [hrich]; exact List.mem_cons_self)
      rw [nextRich_cons hnext.1]
      refine ⟨rfl, ⟨h.live, h.file, fun r hr => ?_⟩, rfl,
        fun hzero => absurd hzero hnext.2⟩
      exact h.rich r (by rw [hrich]; exact List.mem_cons_of_mem _ hr)
    | nil =>
      have hempty : ∀ r ∈ ([] : List FormatRequest),
          r.sequence = s.snapshot.sequence ∧ r.sequence ≠ 0 :=
        fun r hr => absurd hr List.not_mem_nil
      dsimp only [nextRich]
      by_cases hdone : s.snapshot.kind ≠ .text ∨ s.snapshot.ready = true
      · rw [if_pos hdone]
        refine ⟨rfl, ⟨h.live, h.file, hempty⟩, hp, fun _ => ?_⟩
        refine ⟨⟨hnofile, rfl⟩, fun hkind => ?_⟩
        exact hdone.resolve_left (not_not.mpr hkind)
      · rw [if_neg hdone]
        refine ⟨rfl, ⟨h.live, h.file, hempty⟩, rfl, fun hzero => ?_⟩
        rw [h.live hzero] at hdone
        exact absurd (Or.inl (by decide)) hdone

/-- A file request queued while nothing is pending becomes pending. -/
theorem requestLatest_file (hp : s.pending.sequence = 0)
    (hfile : request.sequence = s.snapshot.sequence)
    (hkind : s.snapshot.kind = .files) :
    requestLatest { s with queuedFile := request }
      = ({ s with pending := request, queuedFile := {} },
        request.sequence) := by
  unfold requestLatest
  rw [if_neg (not_not.mpr hp), if_pos ⟨hfile, hkind⟩]

/-- So does a rich request. -/
theorem requestLatest_rich (hp : s.pending.sequence = 0)
    (hne : request.sequence ≠ 0) (hfile : s.queuedFile.sequence = 0)
    (hrich : request.sequence = s.snapshot.sequence) :
    requestLatest { s with queuedRich := [request] }
      = ({ s with pending := request, queuedRich := [] },
        request.sequence) := by
  unfold requestLatest
  rw [if_neg (not_not.mpr hp), if_neg, nextRich_cons hrich]
  rintro ⟨hsame, -⟩
  exact hne (hrich.trans (hsame.symm.trans hfile))

/-- With a request pending it changes nothing. -/
theorem requestLatest_busy (hp : s.pending.sequence ≠ 0) :
    s.requestLatest = (s, 0) := by
  unfold requestLatest
  rw [if_pos hp]

end ClipboardState

-- =============================== invariant

namespace Exchange

/-- A text request was issued for the present snapshot. -/
def Asked (s : Exchange) (request : FormatRequest) : Prop :=
  request.IsText ∧ request.sequence = s.state.snapshot.sequence
    ∧ .issued request ∈ s.log

/-- What every run keeps. The request out is the pending one. -/
structure Inv (s : Exchange) : Prop where
  wire : s.wire = if s.state.pending.sequence = 0 then []
    else [s.state.pending]
  queued : s.state.Queued
  drained : s.state.pending.sequence = 0 → s.state.Drained
  asked : s.state.pending.sequence = 0 → s.state.snapshot.kind = .text →
    ∃ request, s.Asked request
  ready : s.state.snapshot.kind = .text → s.state.snapshot.ready = true →
    ∃ request, s.Asked request
      ∧ .answered request true s.state.snapshot.text ∈ s.log
  issued : ∀ request ∈ s.wire, .issued request ∈ s.log

variable {s : Exchange}

/-- What a snapshot that is ready owes to the history. -/
def Answered (state : ClipboardState) (log : List ExchangeEvent) : Prop :=
  state.snapshot.kind = .text → state.snapshot.ready = true →
    ∃ request : FormatRequest, (request.IsText
        ∧ request.sequence = state.snapshot.sequence
        ∧ .issued request ∈ log)
      ∧ .answered request true state.snapshot.text ∈ log

variable {state : ClipboardState}

/-- The pending request goes out on an empty carrier. -/
theorem issue_inv {log : List ExchangeEvent} (hqueued : state.Queued)
    (hp : state.pending.sequence ≠ 0) (hready : Answered state log) :
    (issue { state, wire := [], log } state.pending).Inv := by
  refine ⟨(if_neg hp).symm, hqueued, fun h => absurd h hp,
    fun h => absurd h hp, fun hkind hr => ?_, fun request hr => ?_⟩
  · obtain ⟨request, ⟨htext, hseq, hissued⟩, hanswer⟩ := hready hkind hr
    exact ⟨request, ⟨htext, hseq, List.mem_append_left _ hissued⟩,
      List.mem_append_left _ hanswer⟩
  · rw [List.mem_singleton.mp hr]
    exact List.mem_append_right _ (List.mem_singleton_self _)

/-- After a call that asked for the latest with nothing pending, the
adapter sends what has become pending. -/
theorem issueIf_inv {log : List ExchangeEvent} (hqueued : state.Queued)
    (hp : state.pending.sequence = 0) (hready : Answered state log) :
    (issueIf { state := state.requestLatest.1, wire := [], log }
      state.requestLatest.2).Inv := by
  obtain ⟨hsnap, hqueued', hpending, hzero⟩ :=
    ClipboardState.requestLatest_idle hqueued hp
  have hready' : Answered state.requestLatest.1 log := by
    unfold Answered
    rw [hsnap]
    exact hready
  unfold issueIf
  by_cases hn : state.requestLatest.2 = 0
  · rw [if_neg (not_not.mpr hn)]
    obtain ⟨hdrained, hdone⟩ := hzero hn
    refine ⟨?_, hqueued', fun _ => hdrained, fun _ hkind => ?_, hready', ?_⟩
    · dsimp only
      rw [hpending, if_pos hn]
    · dsimp only at hkind
      obtain ⟨request, hasked, -⟩ := hready' hkind (by
        rw [hsnap] at hkind ⊢
        exact hdone hkind)
      exact ⟨request, hasked⟩
    · intro request hr
      cases hr
  · rw [if_pos hn]
    exact issue_inv hqueued' (by rwa [hpending]) hready'

/-- A call that leaves the snapshot, the pending request and the carrier
alone, and queues nothing while nothing is pending. -/
theorem Inv.requeue (hs : s.Inv) (hsnap : state.snapshot = s.state.snapshot)
    (hpending : state.pending = s.state.pending) (hqueued : state.Queued)
    (hdrained : state.pending.sequence = 0 → state.Drained) :
    Inv { s with state } := by
  refine ⟨?_, hqueued, hdrained, ?_, ?_, hs.issued⟩
  · dsimp only
    rw [hpending]
    exact hs.wire
  · unfold Asked
    dsimp only
    rw [hpending, hsnap]
    exact hs.asked
  · unfold Asked
    dsimp only
    rw [hsnap]
    exact hs.ready

theorem Inv.wire_nil (hs : s.Inv) (hp : s.state.pending.sequence = 0) :
    s.wire = [] := by
  rw [hs.wire, if_pos hp]

/-- The one request on the wire is the pending one. -/
theorem Inv.wire_cons (hs : s.Inv) (hw : s.wire = request :: rest) :
    s.state.pending.sequence ≠ 0 ∧ request = s.state.pending
      ∧ rest = [] := by
  have hwire := hs.wire
  rw [hw] at hwire
  split at hwire
  · cases hwire
  · rename_i hp
    cases hwire
    exact ⟨hp, rfl, rfl⟩

theorem Inv.formatList (hs : s.Inv) (text files empty rich : Bool) :
    (s.step (.formatList text files empty rich)).Inv := by
  unfold step ClipboardState.formatList
  dsimp only
  generalize (if files then ClipboardKind.files
    else if rich then .rich else if text then .text
    else if empty then .none else .unsupported) = kind
  have hqueued : (s.state.offer kind).Queued :=
    ⟨fun h => absurd h (Nat.succ_ne_zero _), Or.inl rfl,
      fun r hr => absurd hr List.not_mem_nil⟩
  have hready : Answered (s.state.offer kind) s.log := by
    intro htext hr
    have htext : kind = .text := htext
    simp [ClipboardState.offer, htext] at hr
  by_cases hp : s.state.pending.sequence = 0
  · rw [hs.wire_nil hp]
    exact issueIf_inv hqueued hp hready
  · have hp' : (s.state.offer kind).pending.sequence ≠ 0 := hp
    rw [ClipboardState.requestLatest_busy hp']
    exact ⟨hs.wire, hqueued, fun h => absurd h hp, fun h => absurd h hp,
      hready, hs.issued⟩

theorem Inv.response (hs : s.Inv) (valid : Bool) (text : String) :
    (s.step (.response valid text)).Inv := by
  unfold step
  dsimp only
  cases hw : s.wire with
  | nil => exact hs
  | cons request rest =>
    obtain ⟨hp, rfl, rfl⟩ := hs.wire_cons hw
    have hissued : .issued s.state.pending ∈ s.log :=
      hs.issued _ (by rw [hw]; exact List.mem_cons_self)
    have hkeep : ∀ {event : ExchangeEvent}, event ∈ s.log → event ∈
        s.log ++ [.answered s.state.pending valid text] :=
      fun h => List.mem_append_left _ h
    unfold ClipboardState.response
    dsimp only
    by_cases hcurrent : s.state.pending.sequence ≠ 0
        ∧ s.state.pending.sequence = s.state.snapshot.sequence
        ∧ s.state.snapshot.kind = .text
        ∧ (!s.state.pending.files
          && s.state.pending.richRequestId == 0) = true
    · rw [if_pos hcurrent]
      obtain ⟨-, hseq, hkind, hflags⟩ := hcurrent
      have htext : s.state.pending.IsText := by
        simpa [FormatRequest.IsText] using hflags
      have hnofile : s.state.queuedFile.sequence = 0 := by
        refine hs.queued.file.resolve_right fun h => ?_
        rw [hkind] at h
        cases h.2
      by_cases hempty : s.state.queuedRich = []
      · rw [if_pos hempty]
        refine ⟨rfl, ⟨hs.queued.live, Or.inl hnofile, hs.queued.rich⟩,
          fun _ => ⟨hnofile, hempty⟩, fun _ _ => ?_, fun _ hr => ?_,
          fun r hr => absurd hr List.not_mem_nil⟩
        · exact ⟨_, htext, hseq, hkeep hissued⟩
        · refine ⟨_, ⟨htext, hseq, hkeep hissued⟩, ?_⟩
          have hvalid : valid = true := hr
          subst hvalid
          simp [issueIf]
      · rw [if_neg hempty]
        refine issueIf_inv
          ⟨hs.queued.live, Or.inl hnofile, hs.queued.rich⟩ rfl ?_
        intro _ hr
        have hvalid : valid = true := hr
        subst hvalid
        exact ⟨_, ⟨htext, hseq, hkeep hissued⟩, by simp⟩
    · rw [if_neg hcurrent, if_pos hp]
      refine issueIf_inv
        ⟨hs.queued.live, hs.queued.file, hs.queued.rich⟩ rfl ?_
      intro hkind hr
      obtain ⟨old, ⟨htext, hseq, hold⟩, hanswer⟩ := hs.ready hkind hr
      exact ⟨old, ⟨htext, hseq, hkeep hold⟩, hkeep hanswer⟩

theorem Inv.invalidate (hs : s.Inv) (newCarrier : Bool) :
    (s.step (.invalidate newCarrier)).Inv := by
  have hqueued : (s.state.invalidate newCarrier).Queued :=
    ⟨fun _ => rfl, Or.inl rfl, fun r hr => absurd hr List.not_mem_nil⟩
  refine ⟨?_, hqueued, fun _ => ⟨rfl, rfl⟩, ?_, ?_, ?_⟩
  · cases newCarrier with
    | true => rfl
    | false => exact hs.wire
  · intro _ hkind
    cases hkind
  · intro hkind
    cases hkind
  · cases newCarrier with
    | true => exact fun r hr => absurd hr List.not_mem_nil
    | false => exact hs.issued

theorem Inv.cancelFile (hs : s.Inv) (sequence : Nat) :
    (s.step (.cancelQueuedFileRequest sequence)).Inv := by
  unfold step ClipboardState.cancelQueuedFileRequest
  dsimp only
  split
  · refine hs.requeue rfl rfl ⟨hs.queued.live, Or.inl rfl, hs.queued.rich⟩ ?_
    exact fun hp => ⟨rfl, (hs.drained hp).2⟩
  · exact hs

theorem Inv.cancelRich (hs : s.Inv) (requestId : Nat) :
    (s.step (.cancelQueuedRichRequest requestId)).Inv := by
  refine hs.requeue rfl rfl ⟨hs.queued.live, hs.queued.file, ?_⟩ ?_
  · exact fun r hr => hs.queued.rich r (List.mem_of_mem_filter hr)
  · intro hp
    refine ⟨(hs.drained hp).1, ?_⟩
    show s.state.queuedRich.filter _ = []
    rw [(hs.drained hp).2]
    rfl

theorem Inv.requestFiles (hs : s.Inv) (sequence formatId : Nat) :
    (s.step (.requestFiles sequence formatId)).Inv := by
  unfold step ClipboardState.requestFiles
  dsimp only
  by_cases hrefused : sequence = 0 ∨ formatId = 0
      ∨ s.state.snapshot.sequence ≠ sequence
      ∨ s.state.snapshot.kind ≠ .files
  · simp only [if_pos hrefused, Bool.false_eq_true, false_and, if_false]
    exact hs
  · rw [if_neg hrefused]
    simp only [not_or, not_not] at hrefused
    obtain ⟨hne, -, hseq, hkind⟩ := hrefused
    by_cases hsame : s.state.pending.sequence = sequence
        ∧ s.state.pending.files = true
    · have hp : s.state.pending.sequence ≠ 0 := by
        rw [hsame.1]; exact hne
      simp only [if_pos hsame, hp, and_false, if_false]
      exact hs
    · rw [if_neg hsame]
      have hfile : ClipboardState.Queued { s.state with
          queuedFile := { sequence, formatId, files := true } } :=
        ⟨hs.queued.live, Or.inr ⟨hseq.symm, hkind⟩, hs.queued.rich⟩
      by_cases hp : s.state.pending.sequence = 0
      · simp only [hp, and_self, if_true]
        rw [hs.wire_nil hp,
          ClipboardState.requestLatest_file hp hseq.symm hkind]
        refine issue_inv ⟨hs.queued.live, Or.inl rfl, hs.queued.rich⟩ hne ?_
        exact hs.ready
      · simp only [hp, and_false, if_false]
        have hbusy : ClipboardState.requestLatest { s.state with
            queuedFile := { sequence, formatId, files := true } }
            = (_, 0) := ClipboardState.requestLatest_busy hp
        rw [hbusy]
        exact hs.requeue rfl rfl hfile fun h => absurd h hp

theorem Inv.requestRich (hs : s.Inv) (sequence formatId requestId : Nat) :
    (s.step (.requestRich sequence formatId requestId)).Inv := by
  unfold step ClipboardState.requestRich
  dsimp only
  by_cases hrefused : sequence = 0 ∨ sequence ≠ s.state.snapshot.sequence
      ∨ formatId = 0 ∨ requestId = 0
  · simp only [if_pos hrefused, Bool.false_eq_true, false_and, if_false]
    exact hs
  · rw [if_neg hrefused]
    simp only [not_or, not_not] at hrefused
    obtain ⟨hne, hseq, -, -⟩ := hrefused
    have hkept : ∀ r ∈ s.state.queuedRich.filter (·.formatId ≠ formatId),
        r.sequence = s.state.snapshot.sequence ∧ r.sequence ≠ 0 :=
      fun r hr => hs.queued.rich r (List.mem_of_mem_filter hr)
    by_cases hp : s.state.pending.sequence = 0
    · obtain ⟨hnofile, hempty⟩ := hs.drained hp
      have hroom : ¬ maxQueuedRich ≤ 0 := by decide
      simp only [hempty, List.filter_nil, List.length_nil, if_neg hroom,
        List.nil_append, hp, and_self, if_true]
      rw [hs.wire_nil hp,
        ClipboardState.requestLatest_rich hp hne hnofile hseq]
      refine issue_inv ⟨hs.queued.live, hs.queued.file, ?_⟩ hne hs.ready
      exact fun r hr => absurd hr List.not_mem_nil
    · simp only [hp, and_false, if_false]
      split
      · exact hs.requeue rfl rfl ⟨hs.queued.live, hs.queued.file, hkept⟩
          fun h => absurd h hp
      · have hbusy : ClipboardState.requestLatest { s.state with
            queuedRich := s.state.queuedRich.filter (·.formatId ≠ formatId)
              ++ [{ sequence, formatId, richRequestId := requestId }] }
            = (_, 0) := ClipboardState.requestLatest_busy hp
        rw [hbusy]
        refine hs.requeue rfl rfl ⟨hs.queued.live, hs.queued.file, ?_⟩
          fun h => absurd h hp
        intro r hr
        rcases List.mem_append.mp hr with hr | hr
        · exact hkept r hr
        · rw [List.mem_singleton.mp hr]
          exact ⟨hseq, hne⟩

theorem Inv.step (hs : s.Inv) (op : ExchangeOp) : (s.step op).Inv := by
  cases op with
  | formatList text files empty rich =>
    exact hs.formatList text files empty rich
  | response valid text => exact hs.response valid text
  | requestFailed sequence => exact hs
  | invalidate newCarrier => exact hs.invalidate newCarrier
  | cancelQueuedFileRequest sequence => exact hs.cancelFile sequence
  | requestFiles sequence formatId =>
    exact hs.requestFiles sequence formatId
  | requestRich sequence formatId requestId =>
    exact hs.requestRich sequence formatId requestId
  | cancelQueuedRichRequest requestId => exact hs.cancelRich requestId

theorem Inv.start : Inv {} := by
  refine ⟨rfl, ⟨fun _ => rfl, Or.inl rfl, ?_⟩, fun _ => ⟨rfl, rfl⟩, ?_, ?_, ?_⟩
  · exact fun r hr => absurd hr List.not_mem_nil
  · intro _ hkind
    cases hkind
  · intro hkind
    cases hkind
  · exact fun r hr => absurd hr List.not_mem_nil

/-- Only the answer to a text request for the present snapshot changes
it. -/
theorem Inv.snapshot_response (hs : s.Inv) (valid : Bool) (text : String)
    (hw : s.wire = request :: rest) (hother : ¬ (request.IsText
      ∧ request.sequence = s.state.snapshot.sequence)) :
    (s.step (.response valid text)).state.snapshot = s.state.snapshot := by
  obtain ⟨hp, rfl, rfl⟩ := hs.wire_cons hw
  have hnot : ¬ (s.state.pending.sequence ≠ 0
      ∧ s.state.pending.sequence = s.state.snapshot.sequence
      ∧ s.state.snapshot.kind = .text
      ∧ (!s.state.pending.files
        && s.state.pending.richRequestId == 0) = true) := by
    rintro ⟨-, hseq, -, hflags⟩
    exact hother ⟨by simpa [FormatRequest.IsText] using hflags, hseq⟩
  have hstate : ∀ (t : Exchange) (n : Nat),
      (t.issueIf n).state = t.state := by
    intro t n
    unfold issueIf
    split <;> rfl
  unfold Exchange.step ClipboardState.response
  dsimp only
  rw [hw]
  dsimp only
  rw [hstate, if_neg hnot, if_pos hp]
  have hqueued : ClipboardState.Queued { s.state with pending := {} } :=
    ⟨hs.queued.live, hs.queued.file, hs.queued.rich⟩
  exact (ClipboardState.requestLatest_idle hqueued rfl).1

end Exchange

-- =================================== claim

end RemoteDesk.Clipboard
