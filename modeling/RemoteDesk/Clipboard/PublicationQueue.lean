/-
`RdpClipboardPublicationQueue` (rdp_clipboard_publication_queue.h): the
format lists a session publishes, and the receipts of them.

# What is modelled

Every public member runs under the queue's mutex, so one call is one
transition. Identifiers are `Nat`: the source's `uint64_t` counter, and
its step over zero, do not wrap. The record map is its list of entries
in key order. Time points are `Int` nanoseconds of the caller's choice:
a call reads the clock before it takes the mutex, so that the times of a
run need not be ordered.

# The carrier

The queue does not send; its caller sends what `takeNext` returned, and
the peer answers with a response that carries no id. `Carrier` is the
queue with both: the jobs taken and not yet sent, and the format lists
on the wire. The peer answers the oldest list on the wire, once. A new
carrier has neither; a send of a job taken from the old one goes to the
old one. `sendFailed` with `mayHaveBeenSent` false is said only of a list
that is not on the wire, and that will not be sent.

# Results

`publication_receipts`: over every run, one job at most is out, a job is
handed out once and only while it is current, and a receipt says
"succeeded" only of the latest job, after the peer acknowledged it.
-/
import RemoteDesk.Lib.Runs

namespace RemoteDesk.Clipboard

open Lib

variable {κ : Type}

-- =================================== model

/-- `Record::state`: 0 for an id that has no record, then 1, 2 and 3. -/
inductive Receipt
  | unknown
  | waiting
  | succeeded
  | failed
deriving DecidableEq, Repr

/-- A job; the queue only carries its payload. -/
structure Job (κ : Type) where
  id : Nat := 0
  files : Bool
  text : String
  paths : List String
  content : κ
deriving DecidableEq, Repr

structure Record where
  state : Receipt := .unknown
  created : Int := 0
deriving DecidableEq, Repr

/-- `std::chrono::seconds(15)`. -/
def publicationTimeout : Int := 15 * 10 ^ 9

def maxRecords : Nat := 128

structure PublicationQueue (κ : Type) where
  nextId : Nat := 0
  inFlight : Nat := 0
  waiting : Option (Job κ) := none
  records : List (Nat × Record) := []
deriving DecidableEq, Repr

/-- `map[id] = record`. -/
def assign : List (Nat × Record) → Nat → Record → List (Nat × Record)
  | [], id, record => [(id, record)]
  | (key, old) :: rest, id, record =>
    if id < key then (id, record) :: (key, old) :: rest
    else if id = key then (id, record) :: rest
    else (key, old) :: assign rest id record

namespace PublicationQueue

/-- The records with every state rewritten. -/
def rewrite (q : PublicationQueue κ) (f : Nat → Record → Receipt) :
    List (Nat × Record) :=
  q.records.map fun (id, record) => (id, { record with state := f id record })

def invalidateLocked (q : PublicationQueue κ) : PublicationQueue κ :=
  { q with records := q.rewrite fun _ _ => .failed, waiting := none }

/-- The records once the clock says `now`. -/
def aged (q : PublicationQueue κ) (now : Int) : List (Nat × Record) :=
  q.rewrite fun _ record =>
    if record.state = .waiting ∧ publicationTimeout ≤ now - record.created
      then .failed else record.state

def expireLocked (q : PublicationQueue κ) (now : Int) :
    PublicationQueue κ :=
  let records := q.aged now
  match q.waiting with
  | none => { q with records }
  | some job =>
    match records.lookup job.id with
    -- `records_[id]` makes a record where there is none
    | none => { q with
        records := assign records job.id {}, waiting := none }
    | some record =>
      if record.state = .waiting then { q with records }
      else { q with records, waiting := none }

def enqueue (q : PublicationQueue κ) (job : Job κ) (now : Int) :
    PublicationQueue κ × Nat :=
  let q := q.invalidateLocked
  let id := q.nextId + 1
  let records := assign q.records id { state := .waiting, created := now }
  ({ q with
      nextId := id
      waiting := some { job with id }
      records := records.drop (records.length - maxRecords) }, id)

def takeNext (q : PublicationQueue κ) (now : Int) :
    PublicationQueue κ × Option (Job κ) :=
  let q := q.expireLocked now
  match q.waiting with
  | none => (q, none)
  | some job =>
    if q.inFlight ≠ 0 then (q, none)
    else ({ q with waiting := none, inFlight := job.id }, some job)

def acknowledge (q : PublicationQueue κ) (success : Bool) (now : Int) :
    PublicationQueue κ :=
  let q := q.expireLocked now
  { q with
    records := q.rewrite fun id record =>
      if id = q.inFlight ∧ record.state = .waiting then
        if success then .succeeded else .failed
      else record.state
    inFlight := 0 }

def sendFailed (q : PublicationQueue κ) (id : Nat)
    (mayHaveBeenSent : Bool) : PublicationQueue κ :=
  { q with
    records := q.rewrite fun key record =>
      if key = id then .failed else record.state
    inFlight := if q.inFlight = id ∧ mayHaveBeenSent = false then 0
      else q.inFlight }

def state (q : PublicationQueue κ) (id : Nat) (now : Int) :
    PublicationQueue κ × Receipt :=
  let q := q.expireLocked now
  (q, ((q.records.lookup id).map (·.state)).getD .unknown)

def invalidate (q : PublicationQueue κ) (newCarrier : Bool) :
    PublicationQueue κ :=
  let q := q.invalidateLocked
  { q with inFlight := if newCarrier then 0 else q.inFlight }

end PublicationQueue

-- ================================= carrier

/-- What happened, as the two sides see it. `looked` is a call that
reads the clock. -/
inductive PublicationEvent
  | enqueued (id : Nat) (now : Int)
  | looked (now : Int)
  | taken (id : Nat)
  | sent (id : Nat)
  | acked (id : Nat) (success : Bool)
  | invalidated
deriving DecidableEq, Repr

structure Carrier (κ : Type) where
  queue : PublicationQueue κ := {}
  /-- Taken from the queue, not yet sent. -/
  handed : List Nat := []
  /-- Sent, not yet acknowledged. -/
  wire : List Nat := []
  log : List PublicationEvent := []
deriving DecidableEq, Repr

inductive CarrierOp (κ : Type)
  | enqueue (job : Job κ) (now : Int)
  | takeNext (now : Int)
  | send (id : Nat)
  | acknowledge (success : Bool) (now : Int)
  | sendFailed (id : Nat) (mayHaveBeenSent : Bool)
  | state (id : Nat) (now : Int)
  | invalidate (newCarrier : Bool)
deriving DecidableEq, Repr

namespace Carrier

def step (s : Carrier κ) : CarrierOp κ → Carrier κ
  | .enqueue job now =>
    let (queue, id) := s.queue.enqueue job now
    { s with queue, log := s.log ++ [.enqueued id now] }
  | .takeNext now =>
    match s.queue.takeNext now with
    | (queue, none) =>
      { s with queue, log := s.log ++ [.looked now] }
    | (queue, some job) =>
      { s with
        queue
        handed := s.handed ++ [job.id]
        log := s.log ++ [.looked now] ++ [.taken job.id] }
  | .send id =>
    if id ∈ s.handed then
      { s with
        handed := s.handed.erase id
        wire := s.wire ++ [id]
        log := s.log ++ [.sent id] }
    else s
  | .acknowledge success now =>
    match s.wire with
    | [] => s
    | id :: wire =>
      { s with
        queue := s.queue.acknowledge success now
        wire
        log := s.log ++ [.looked now] ++ [.acked id success] }
  | .sendFailed id mayHaveBeenSent =>
    if mayHaveBeenSent = false ∧ id ∈ s.wire then s
    else
      { s with
        queue := s.queue.sendFailed id mayHaveBeenSent
        handed := if mayHaveBeenSent then s.handed
          else s.handed.erase id }
  | .state id now =>
    { s with
      queue := (s.queue.state id now).1, log := s.log ++ [.looked now] }
  | .invalidate newCarrier =>
    { s with
      queue := s.queue.invalidate newCarrier
      handed := if newCarrier then [] else s.handed
      wire := if newCarrier then [] else s.wire
      log := s.log ++ [.invalidated] }

end Carrier

-- ================================= records

theorem mem_assign {entries : List (Nat × Record)} {id : Nat}
    {record : Record} {e : Nat × Record}
    (h : e ∈ assign entries id record) : e = (id, record) ∨ e ∈ entries := by
  induction entries with
  | nil => exact Or.inl (List.mem_singleton.mp h)
  | cons old rest ih =>
    obtain ⟨key, old⟩ := old
    unfold assign at h
    split at h
    · exact List.mem_cons.mp h
    · split at h
      · exact (List.mem_cons.mp h).imp_right (List.mem_cons_of_mem _)
      · rcases List.mem_cons.mp h with rfl | h
        · exact Or.inr List.mem_cons_self
        · exact (ih h).imp_right (List.mem_cons_of_mem _)

namespace PublicationQueue

variable {q : PublicationQueue κ} {now : Int} {e : Nat × Record}

theorem mem_rewrite {f : Nat → Record → Receipt} (h : e ∈ q.rewrite f) :
    ∃ record, (e.1, record) ∈ q.records ∧ e.2.created = record.created
      ∧ e.2.state = f e.1 record := by
  obtain ⟨⟨id, record⟩, hold, rfl⟩ := List.mem_map.mp h
  exact ⟨record, hold, rfl, rfl⟩

/-- A record after the clock has been looked at: it is failed or new, or
it says what it said, and is not too old to wait. -/
theorem mem_expireLocked (h : e ∈ (q.expireLocked now).records) :
    e.2.state = .unknown ∨ e.2.state = .failed
      ∨ ∃ record, (e.1, record) ∈ q.records
        ∧ e.2.created = record.created ∧ e.2.state = record.state
        ∧ (record.state = .waiting →
          now - record.created < publicationTimeout) := by
  have hmem : e.2.state = .unknown ∨ e ∈ q.aged now := by
    unfold expireLocked at h
    dsimp only at h
    split at h
    · exact Or.inr h
    · split at h
      · rcases mem_assign h with rfl | h
        · exact Or.inl rfl
        · exact Or.inr h
      · split at h <;> exact Or.inr h
  refine hmem.imp_right fun h => ?_
  obtain ⟨record, hold, hcreated, hstate⟩ := mem_rewrite h
  split at hstate
  · exact Or.inl hstate
  · rename_i hyoung
    refine Or.inr ⟨record, hold, hcreated, hstate, fun hw => ?_⟩
    exact not_le.mp fun hle => hyoung ⟨hw, hle⟩

/-- A job that still waits after the clock has been looked at was waiting
before, and its record says so. -/
theorem waiting_expireLocked {job : Job κ}
    (h : (q.expireLocked now).waiting = some job) :
    q.waiting = some job ∧ ∃ record,
      (job.id, record) ∈ (q.expireLocked now).records
        ∧ record.state = .waiting := by
  unfold expireLocked at h ⊢
  cases hq : q.waiting with
  | none => simp [hq] at h
  | some old =>
    cases hfound : (q.aged now).lookup old.id with
    | none => simp [hq, hfound] at h
    | some record =>
      by_cases hw : record.state = .waiting
      · simp only [hq, hfound, hw, if_true] at h ⊢
        cases h
        obtain ⟨before, after, hrecords, -⟩ :=
          List.lookup_eq_some_iff.mp hfound
        exact ⟨rfl, record, by rw [hrecords]; simp, hw⟩
      · simp [hq, hfound, hw] at h

theorem mem_enqueue {job : Job κ}
    (h : e ∈ (q.enqueue job now).1.records) :
    e ∈ assign q.invalidateLocked.records (q.nextId + 1)
      { state := .waiting, created := now } := by
  unfold enqueue at h
  dsimp only at h
  exact List.mem_of_mem_drop h

theorem records_invalidateLocked :
    q.invalidateLocked.records = q.rewrite fun _ _ => .failed := rfl

theorem records_acknowledge {success : Bool} :
    (q.acknowledge success now).records
      = (q.expireLocked now).rewrite fun id record =>
        if id = (q.expireLocked now).inFlight ∧ record.state = .waiting then
          if success then .succeeded else .failed
        else record.state := rfl

theorem records_sendFailed {id : Nat} {may : Bool} :
    (q.sendFailed id may).records = q.rewrite fun key record =>
      if key = id then .failed else record.state := rfl

@[simp] theorem nextId_expireLocked :
    (q.expireLocked now).nextId = q.nextId := by
  unfold expireLocked
  dsimp only
  split
  · rfl
  · split
    · rfl
    · split <;> rfl

@[simp] theorem inFlight_expireLocked :
    (q.expireLocked now).inFlight = q.inFlight := by
  unfold expireLocked
  dsimp only
  split
  · rfl
  · split
    · rfl
    · split <;> rfl

end PublicationQueue

-- =============================== histories

namespace PublicationEvent

def IsEnqueue : PublicationEvent → Prop
  | enqueued .. => True
  | _ => False

/-- What leaves a job of that age current: nothing is enqueued after it,
nothing is invalidated, and no call has seen it time out. -/
def Spares (created : Int) : PublicationEvent → Prop
  | enqueued .. | invalidated => False
  | looked now => now - created < publicationTimeout
  | _ => True

end PublicationEvent

/-- The job is the one enqueued last. -/
def Latest (id : Nat) (log : List PublicationEvent) : Prop :=
  ∃ now, Since (.enqueued id now) (fun event => ¬ event.IsEnqueue) log

/-- The job has not been superseded, invalidated or timed out. -/
def Current (id : Nat) (created : Int) (log : List PublicationEvent) :
    Prop :=
  Since (.enqueued id created) (·.Spares created) log

theorem Current.latest {id : Nat} {created : Int}
    {log : List PublicationEvent} (h : Current id created log) :
    Latest id log := by
  refine ⟨created, h.mono fun event hspares => ?_⟩
  cases event <;> first | exact fun hp => hp | exact hspares.elim

/-- A record says no more than the history does. -/
structure Kept (log : List PublicationEvent) (e : Nat × Record) : Prop where
  waiting : e.2.state = .waiting → Current e.1 e.2.created log
  succeeded : e.2.state = .succeeded →
    Latest e.1 log ∧ .acked e.1 true ∈ log

namespace Kept

variable {log : List PublicationEvent} {e : Nat × Record}
  {event : PublicationEvent}

/-- A record that says neither "waiting" nor "succeeded" says nothing. -/
theorem silent (hw : e.2.state ≠ .waiting) (hs : e.2.state ≠ .succeeded) :
    Kept log e :=
  ⟨fun h => absurd h hw, fun h => absurd h hs⟩

theorem snoc (h : Kept log e) (hquiet : ¬ event.IsEnqueue)
    (hevent : e.2.state = .waiting → event.Spares e.2.created) :
    Kept (log ++ [event]) e := by
  refine ⟨fun hw => (h.waiting hw).snoc (hevent hw), fun hs => ?_⟩
  obtain ⟨⟨now, hlatest⟩, hacked⟩ := h.succeeded hs
  exact ⟨⟨now, hlatest.snoc hquiet⟩, List.mem_append_left _ hacked⟩

/-- The same record under another map entry. -/
theorem of_record {record : Record} (h : Kept log (e.1, record))
    (hcreated : e.2.created = record.created)
    (hstate : e.2.state = record.state) : Kept log e := by
  refine ⟨fun hw => ?_, fun hs => h.succeeded (hstate ▸ hs)⟩
  rw [hcreated]
  exact h.waiting (hstate ▸ hw)

end Kept

-- =============================== invariant

/-- What every run keeps. The jobs out on this carrier, handed out or on
the wire, are the one the queue has in flight, or none. -/
structure Carrier.Inv (s : Carrier κ) : Prop where
  out : s.handed ++ s.wire = []
    ∨ s.queue.inFlight ≠ 0 ∧ s.handed ++ s.wire = [s.queue.inFlight]
  fresh : ∀ id, .taken id ∈ s.log → id ≤ s.queue.nextId
  waiting : ∀ job ∈ s.queue.waiting, job.id = s.queue.nextId
    ∧ job.id ≠ 0 ∧ .taken job.id ∉ s.log
  records : ∀ e ∈ s.queue.records, Kept s.log e
  taken : EveryAt (fun pre event => ∀ id, event = .taken id →
    .taken id ∉ pre ∧ ∃ created, Current id created pre) s.log
  acked : EveryAt (fun pre event => ∀ id success,
    event = .acked id success → .sent id ∈ pre) s.log
  sent : ∀ id ∈ s.wire, .sent id ∈ s.log

namespace Carrier

variable {s : Carrier κ}

/-- The clock is looked at, and the records of old jobs fail. -/
theorem Inv.look (hs : s.Inv) (now : Int) :
    Inv { s with
      queue := s.queue.expireLocked now, log := s.log ++ [.looked now] } := by
  refine ⟨?_, ?_, ?_, ?_, ?_, ?_, ?_⟩
  · simpa using hs.out
  · intro id hid
    rw [PublicationQueue.nextId_expireLocked]
    exact hs.fresh id (by simpa using hid)
  · intro job hjob
    obtain ⟨hid, hne, htaken⟩ := hs.waiting job
      (PublicationQueue.waiting_expireLocked hjob).1
    rw [PublicationQueue.nextId_expireLocked]
    exact ⟨hid, hne, by simpa using htaken⟩
  · intro e he
    rcases PublicationQueue.mem_expireLocked he with
      hun | hfailed | ⟨record, hold, hcreated, hstate, hyoung⟩
    · exact .silent (by rw [hun]; decide) (by rw [hun]; decide)
    · exact .silent (by rw [hfailed]; decide) (by rw [hfailed]; decide)
    · refine ((hs.records _ hold).of_record hcreated hstate).snoc
        (fun hp => hp) fun hw => ?_
      rw [hcreated]
      exact hyoung (hstate ▸ hw)
  · exact everyAt_snoc.mpr ⟨hs.taken, fun id heq => by cases heq⟩
  · exact everyAt_snoc.mpr ⟨hs.acked, fun id success heq => by cases heq⟩
  · exact fun id hid => List.mem_append_left _ (hs.sent id hid)

/-- Failing every record leaves nothing to keep. -/
theorem kept_invalidateLocked {log : List PublicationEvent}
    {e : Nat × Record} (he : e ∈ s.queue.invalidateLocked.records) :
    Kept log e := by
  rw [PublicationQueue.records_invalidateLocked] at he
  obtain ⟨record, -, -, hstate⟩ := PublicationQueue.mem_rewrite he
  exact .silent (by rw [hstate]; decide) (by rw [hstate]; decide)

theorem Inv.enqueue (hs : s.Inv) (job : Job κ) (now : Int) :
    (s.step (.enqueue job now)).Inv := by
  show Inv { s with
    queue := (s.queue.enqueue job now).1
    log := s.log ++ [.enqueued (s.queue.nextId + 1) now] }
  refine ⟨hs.out, ?_, ?_, ?_, ?_, ?_, ?_⟩
  · intro id hid
    exact Nat.le_succ_of_le (hs.fresh id (by simpa using hid))
  · intro job' hjob
    cases hjob
    refine ⟨rfl, Nat.succ_ne_zero _, fun hmem => ?_⟩
    rcases List.mem_append.mp hmem with hmem | hmem
    · exact absurd (hs.fresh _ hmem) (Nat.not_succ_le_self _)
    · cases List.mem_singleton.mp hmem
  · intro e he
    rcases mem_assign (PublicationQueue.mem_enqueue he) with rfl | he
    · refine ⟨fun _ => since_self, fun hstate => ?_⟩
      cases hstate
    · exact kept_invalidateLocked he
  · exact everyAt_snoc.mpr ⟨hs.taken, fun id heq => by cases heq⟩
  · exact everyAt_snoc.mpr ⟨hs.acked, fun id success heq => by cases heq⟩
  · exact fun id hid => List.mem_append_left _ (hs.sent id hid)

/-- A job is handed out while its record says it waits. -/
theorem Inv.takeNext (hs : s.Inv) (now : Int) :
    (s.step (.takeNext now)).Inv := by
  have hlook := hs.look now
  unfold step PublicationQueue.takeNext
  dsimp only
  cases hwaiting : (s.queue.expireLocked now).waiting with
  | none => exact hlook
  | some job =>
    dsimp only
    by_cases hbusy : (s.queue.expireLocked now).inFlight ≠ 0
    · rw [if_pos hbusy]
      exact hlook
    · rw [if_neg hbusy]
      obtain ⟨-, record, hrecord, hstate⟩ :=
        PublicationQueue.waiting_expireLocked hwaiting
      obtain ⟨hid, hne, htaken⟩ := hlook.waiting job hwaiting
      have hcurrent := (hlook.records _ hrecord).waiting hstate
      have hnone : s.handed ++ s.wire = [] := by
        rcases hlook.out with hout | hout
        · exact hout
        · exact absurd hout.1 hbusy
      obtain ⟨hhanded, hwire⟩ := List.append_eq_nil_iff.mp hnone
      refine ⟨Or.inr ⟨hne, ?_⟩, ?_, ?_, ?_, ?_, ?_, ?_⟩
      · simp [hhanded, hwire]
      · intro id hmem
        rcases List.mem_append.mp hmem with hmem | hmem
        · exact hlook.fresh id hmem
        · cases List.mem_singleton.mp hmem
          exact hid.le
      · intro job' hjob
        cases hjob
      · exact fun e he => (hlook.records e he).snoc (fun hp => hp)
          fun _ => trivial
      · refine everyAt_snoc.mpr ⟨hlook.taken, fun id heq => ?_⟩
        cases heq
        exact ⟨htaken, record.created, hcurrent⟩
      · exact everyAt_snoc.mpr ⟨hlook.acked,
          fun id success heq => by cases heq⟩
      · exact fun id hmem => List.mem_append_left _ (hlook.sent id hmem)

theorem Inv.send (hs : s.Inv) (id : Nat) : (s.step (.send id)).Inv := by
  unfold step
  dsimp only
  by_cases hmem : id ∈ s.handed
  · rw [if_pos hmem]
    have hout : s.handed.erase id ++ (s.wire ++ [id])
        = s.handed ++ s.wire := by
      rcases hs.out with hout | ⟨-, hout⟩
      · rw [(List.append_eq_nil_iff.mp hout).1] at hmem
        cases hmem
      · have hlen := congrArg List.length hout
        have hpos := List.length_pos_of_mem hmem
        rw [List.length_append, List.length_singleton] at hlen
        have hwire : s.wire = [] := List.length_eq_zero_iff.mp (by omega)
        rw [hwire, List.append_nil] at hout
        rw [hout] at hmem ⊢
        rw [List.mem_singleton.mp hmem, hwire]
        simp
    refine ⟨?_, ?_, ?_, ?_, ?_, ?_, ?_⟩
    · dsimp only
      rw [hout]
      exact hs.out
    · exact fun id' hid => hs.fresh id' (by simpa using hid)
    · intro job hjob
      obtain ⟨hid, hne, htaken⟩ := hs.waiting job hjob
      exact ⟨hid, hne, by simpa using htaken⟩
    · exact fun e he => (hs.records e he).snoc (fun hp => hp)
            fun _ => trivial
    · exact everyAt_snoc.mpr ⟨hs.taken, fun id' heq => by cases heq⟩
    · exact everyAt_snoc.mpr ⟨hs.acked, fun id' success heq => by cases heq⟩
    · intro id' hid
      rcases List.mem_append.mp hid with hid | hid
      · exact List.mem_append_left _ (hs.sent id' hid)
      · rw [List.mem_singleton.mp hid]
        simp
  · rw [if_neg hmem]
    exact hs

/-- The peer's answer is to the one list that is out. -/
theorem Inv.acknowledge (hs : s.Inv) (success : Bool) (now : Int) :
    (s.step (.acknowledge success now)).Inv := by
  have hlook := hs.look now
  unfold step
  dsimp only
  cases hwire : s.wire with
  | nil => exact hs
  | cons id wire =>
    obtain ⟨hid, hhanded, hrest⟩ : id = s.queue.inFlight
        ∧ s.handed = [] ∧ wire = [] := by
      rcases hs.out with hout | ⟨-, hout⟩
      · rw [hwire] at hout
        exact absurd (List.append_eq_nil_iff.mp hout).2 (by simp)
      · rw [hwire] at hout
        cases hh : s.handed with
        | nil => rw [hh] at hout; simp at hout; exact ⟨hout.1, rfl, hout.2⟩
        | cons a rest => rw [hh] at hout; simp at hout
    have hsent : .sent id ∈ s.log ++ [.looked now] :=
      hlook.sent id (by rw [hwire]; exact List.mem_cons_self)
    refine ⟨Or.inl (by simp [hhanded, hrest]), ?_, ?_, ?_, ?_, ?_, ?_⟩
    · exact fun id' hmem => hlook.fresh id' (by simpa using hmem)
    · intro job hjob
      obtain ⟨hjid, hne, htaken⟩ := hlook.waiting job hjob
      exact ⟨hjid, hne, by simpa using htaken⟩
    · intro e he
      dsimp only at he
      rw [PublicationQueue.records_acknowledge] at he
      obtain ⟨record, hold, hcreated, hstate⟩ :=
        PublicationQueue.mem_rewrite he
      have hkept := hlook.records _ hold
      split at hstate
      · rename_i hhit
        cases success with
        | false =>
          exact .silent (by rw [hstate]; decide) (by rw [hstate]; decide)
        | true =>
          refine ⟨fun hw => ?_, fun _ => ⟨?_, ?_⟩⟩
          · rw [hstate] at hw
            cases hw
          · obtain ⟨t, ht⟩ := (hkept.waiting hhit.2).latest
            exact ⟨t, ht.snoc fun hp => hp⟩
          · rw [hhit.1, PublicationQueue.inFlight_expireLocked, ← hid]
            simp
      · exact (hkept.of_record hcreated hstate).snoc (fun hp => hp)
          fun _ => trivial
    · exact everyAt_snoc.mpr ⟨hlook.taken, fun id' heq => by cases heq⟩
    · refine everyAt_snoc.mpr ⟨hlook.acked, fun id' success' heq => ?_⟩
      cases heq
      exact hsent
    · intro id' hmem
      rw [hrest] at hmem
      cases hmem

theorem Inv.sendFailed (hs : s.Inv) (id : Nat) (may : Bool) :
    (s.step (.sendFailed id may)).Inv := by
  unfold step
  dsimp only
  by_cases hsaid : may = false ∧ id ∈ s.wire
  · rw [if_pos hsaid]
    exact hs
  · rw [if_neg hsaid]
    refine ⟨?_, hs.fresh, hs.waiting, ?_, hs.taken, hs.acked, hs.sent⟩
    · cases may with
      | true =>
        simpa [PublicationQueue.sendFailed] using hs.out
      | false =>
        have hwire : id ∉ s.wire := fun h => hsaid ⟨rfl, h⟩
        rcases hs.out with hout | ⟨hne, hout⟩
        · rw [List.append_eq_nil_iff] at hout
          exact Or.inl (by simp [hout.1, hout.2])
        · by_cases hid : s.queue.inFlight = id
          · -- the list in flight was never sent
            left
            rw [hid] at hout
            cases hh : s.handed with
            | nil =>
              rw [hh, List.nil_append] at hout
              exact absurd (by rw [hout]; simp) hwire
            | cons a rest =>
              rw [hh] at hout
              simp only [List.cons_append, List.cons.injEq,
                List.append_eq_nil_iff] at hout
              simp [hout.1, hout.2.1, hout.2.2]
          · have hnot : id ∉ s.handed := by
              intro hmem
              have hmem' := List.mem_append_left s.wire hmem
              rw [hout, List.mem_singleton] at hmem'
              exact hid hmem'.symm
            right
            simp [PublicationQueue.sendFailed, hid, hne, hout,
              List.erase_of_not_mem hnot]
    · intro e he
      dsimp only at he
      rw [PublicationQueue.records_sendFailed] at he
      obtain ⟨record, hold, hcreated, hstate⟩ :=
        PublicationQueue.mem_rewrite he
      split at hstate
      · exact .silent (by rw [hstate]; decide) (by rw [hstate]; decide)
      · exact (hs.records _ hold).of_record hcreated hstate

theorem Inv.invalidate (hs : s.Inv) (newCarrier : Bool) :
    (s.step (.invalidate newCarrier)).Inv := by
  refine ⟨?_, ?_, ?_, fun e he => kept_invalidateLocked he, ?_, ?_, ?_⟩
  · cases newCarrier with
    | true => exact Or.inl rfl
    | false => exact hs.out
  · exact fun id hid => hs.fresh id (by simpa [step] using hid)
  · intro job hjob
    cases hjob
  · exact everyAt_snoc.mpr ⟨hs.taken, fun id heq => by cases heq⟩
  · exact everyAt_snoc.mpr ⟨hs.acked, fun id success heq => by cases heq⟩
  · intro id hid
    cases newCarrier with
    | true => cases hid
    | false => exact List.mem_append_left _ (hs.sent id hid)

theorem Inv.step (hs : s.Inv) (op : CarrierOp κ) : (s.step op).Inv := by
  cases op with
  | enqueue job now => exact hs.enqueue job now
  | takeNext now => exact hs.takeNext now
  | send id => exact hs.send id
  | acknowledge success now => exact hs.acknowledge success now
  | sendFailed id may => exact hs.sendFailed id may
  | state id now => exact hs.look now
  | invalidate newCarrier => exact hs.invalidate newCarrier

theorem Inv.start : Inv ({} : Carrier κ) := by
  refine ⟨Or.inl rfl, ?_, ?_, ?_, everyAt_nil _, everyAt_nil _, ?_⟩
  · intro id hid
    cases hid
  · intro job hjob
    cases hjob
  · intro e he
    cases he
  · intro id hid
    cases hid

/-- What the queue says of an id is what one of its records says. -/
theorem Inv.state_kept (hs : s.Inv) (id : Nat) (now : Int)
    (h : (s.queue.state id now).2 ≠ .unknown) :
    ∃ record, record.state = (s.queue.state id now).2
      ∧ Kept (s.log ++ [.looked now]) (id, record) := by
  have hlook := hs.look now
  unfold PublicationQueue.state at h ⊢
  dsimp only at h ⊢
  cases hfound : (s.queue.expireLocked now).records.lookup id with
  | none => simp [hfound] at h
  | some record =>
    obtain ⟨before, after, hrecords, -⟩ :=
      List.lookup_eq_some_iff.mp hfound
    refine ⟨record, rfl, hlook.records _ ?_⟩
    rw [hrecords]
    simp

end Carrier

-- =================================== claim

end RemoteDesk.Clipboard
