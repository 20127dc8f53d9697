/-
The SSH session manager: sessions, their states and their events
(ssh_session_manager.cpp).

# Sessions

A session is addressed by its number, its channel and its generation.
`owned` is the test the three operations on a session share: the number
is known and the rest of the handle is that of the session. What fails
it changes nothing.

# Events

Every accepted operation on a session takes the next number of its
sequence; `transition` and `setBackgroundLimited` retain an event under
it. Only `transition` trims the events to `kMaxEventsPerSession`, so the
bound is a matter of what the run has asked for (`Within`).

Clocks are arguments. The adapter and the network callback of a session
are left out: no operation here reads them.
-/
import Mathlib.Data.List.AList
import RemoteDesk.Lib.Runs

namespace RemoteDesk.Ssh

open Lib

-- =============================== the types

inductive SshSessionLifecycleState where
  | created
  | connecting
  | authenticating
  | ready
  | networkLost
  | reconnectScheduled
  | reconnecting
  | needsAuthentication
  | failed
  | closing
  | closed
deriving DecidableEq, Repr

inductive SshSessionManagerResult where
  | ok
  | invalidIdentity
  | notFound
  | staleSession
  | invalidTransition
  | alreadyExists
  | limitReached
deriving DecidableEq, Repr

structure SshSessionHandle where
  sessionId : Nat := 0
  channelId : List UInt8 := "shell".toUTF8.toList
  generation : Nat := 0
deriving DecidableEq, Repr

def SshSessionHandle.valid (handle : SshSessionHandle) : Bool :=
  handle.sessionId ≠ 0 && handle.generation ≠ 0 && handle.channelId ≠ []

structure SshEventEnvelope where
  sessionId : Nat
  generation : Nat
  channelId : List UInt8
  sequence : Nat
  timestampMs : Nat
  priority : Nat := 0
  type : List UInt8
  payloadJson : List UInt8
deriving DecidableEq, Repr

structure SshSessionContext where
  sessionId : Nat
  generation : Nat
  channelId : List UInt8
  state : SshSessionLifecycleState := .created
  eventSequence : Nat := 0
  host : List UInt8
  port : Int
  backgroundLimited : Bool := false
  lastEventType : List UInt8 := []
deriving DecidableEq, Repr

structure Entry where
  context : SshSessionContext
  events : List SshEventEnvelope := []
deriving DecidableEq, Repr

structure SshSessionManager where
  entries : AList fun _ : Nat => Entry := ∅

def kMaxSessions : Nat := 32
def kMaxEventsPerSession : Nat := 128

-- ========================== the operations

def validTransition (source target : SshSessionLifecycleState) : Bool :=
  if source = target then true
  else
    match source with
    | .created => target ∈ [.connecting, .closing, .failed]
    | .connecting =>
      target ∈ [.authenticating, .networkLost, .failed, .closing]
    | .authenticating => target ∈
        [.ready, .needsAuthentication, .networkLost, .failed, .closing]
    | .ready =>
      target ∈ [.networkLost, .needsAuthentication, .closing, .failed]
    | .networkLost => target ∈
        [.reconnectScheduled, .needsAuthentication, .failed, .closing]
    | .reconnectScheduled =>
      target ∈ [.reconnecting, .needsAuthentication, .failed, .closing]
    | .reconnecting => target ∈
        [.ready, .needsAuthentication, .networkLost, .failed, .closing]
    | .needsAuthentication =>
      target ∈ [.authenticating, .ready, .failed, .closing]
    | .failed => target ∈ [.reconnectScheduled, .connecting, .closing]
    | .closing => target ∈ [.closed, .failed]
    | .closed => false

/-- `eventSequence++`, on 64 bits. -/
def SshSessionContext.next (c : SshSessionContext) : Nat :=
  (c.eventSequence + 1) % 2 ^ 64

namespace SshSessionManager

/-- The session of the handle, as `closeSession`, `transition` and
`setBackgroundLimited` look for it. -/
def owned (m : SshSessionManager) (handle : SshSessionHandle) :
    Except SshSessionManagerResult Entry :=
  match m.entries.lookup handle.sessionId with
  | none => .error .notFound
  | some entry =>
    if !handle.valid || entry.context.generation ≠ handle.generation
        || entry.context.channelId ≠ handle.channelId then
      .error .staleSession
    else .ok entry

/-- The session of the handle, as the queries look for it. -/
def resolveLocked (m : SshSessionManager) (handle : SshSessionHandle) :
    Except SshSessionManagerResult Entry :=
  if !handle.valid then .error .invalidIdentity
  else
    match m.entries.lookup handle.sessionId with
    | none => .error .notFound
    | some entry =>
      if entry.context.generation ≠ handle.generation
          || entry.context.channelId ≠ handle.channelId then
        .error .staleSession
      else .ok entry

def registerSession (m : SshSessionManager) (handle : SshSessionHandle)
    (host : List UInt8) (port : Int) :
    SshSessionManagerResult × SshSessionManager :=
  if !handle.valid || host = [] || port ≤ 0 || port > 65535 then
    (.invalidIdentity, m)
  else if m.entries.entries.length ≥ kMaxSessions
      && (m.entries.lookup handle.sessionId).isNone then
    (.limitReached, m)
  else if (m.entries.lookup handle.sessionId).isSome then
    (.alreadyExists, m)
  else
    let entry : Entry := {
      context := {
        sessionId := handle.sessionId
        generation := handle.generation
        channelId := handle.channelId
        host := host
        port := port } }
    (.ok, ⟨m.entries.insert handle.sessionId entry⟩)

def closeSession (m : SshSessionManager) (handle : SshSessionHandle)
    (remove : Bool) : SshSessionManagerResult × SshSessionManager :=
  match m.owned handle with
  | .error result => (result, m)
  | .ok entry =>
    let closed := { entry with context := { entry.context with
      state := .closed
      eventSequence := entry.context.next
      lastEventType := "closed".toUTF8.toList } }
    if !remove then (.ok, ⟨m.entries.insert handle.sessionId closed⟩)
    else (.ok, ⟨m.entries.erase handle.sessionId⟩)

/-- The oldest events go. -/
def trim (events : List SshEventEnvelope) : List SshEventEnvelope :=
  if events.length > kMaxEventsPerSession then
    events.drop (events.length - kMaxEventsPerSession)
  else events

def transition (m : SshSessionManager) (handle : SshSessionHandle)
    (state : SshSessionLifecycleState) (eventType payloadJson : List UInt8)
    (priority timestampMs : Nat) :
    SshSessionManagerResult × SshSessionManager :=
  match m.owned handle with
  | .error result => (result, m)
  | .ok entry =>
    if !validTransition entry.context.state state then
      (.invalidTransition, m)
    else
      let context := { entry.context with
        state := state
        eventSequence := entry.context.next
        lastEventType := eventType }
      let event : SshEventEnvelope := {
        sessionId := handle.sessionId
        generation := handle.generation
        channelId := handle.channelId
        sequence := context.eventSequence
        timestampMs := timestampMs
        priority := priority
        type := eventType
        payloadJson := payloadJson.take 8192 }
      (.ok, ⟨m.entries.insert handle.sessionId
        ⟨context, trim (entry.events ++ [event])⟩⟩)

def setBackgroundLimited (m : SshSessionManager) (handle : SshSessionHandle)
    (limited : Bool) (reason : List UInt8) (timestampMs : Nat) :
    SshSessionManagerResult × SshSessionManager :=
  match m.owned handle with
  | .error result => (result, m)
  | .ok entry =>
    let context := { entry.context with
      backgroundLimited := limited
      eventSequence := entry.context.next
      lastEventType :=
        if limited then "backgroundLimited".toUTF8.toList
        else "backgroundAvailable".toUTF8.toList }
    let event : SshEventEnvelope := {
      sessionId := handle.sessionId
      generation := handle.generation
      channelId := handle.channelId
      sequence := context.eventSequence
      timestampMs := timestampMs
      type := context.lastEventType
      payloadJson := reason.take 1024 }
    (.ok,
      ⟨m.entries.insert handle.sessionId ⟨context, entry.events ++ [event]⟩⟩)

def accepts (m : SshSessionManager) (handle : SshSessionHandle) : Bool :=
  match m.resolveLocked handle with
  | .error _ => false
  | .ok entry => entry.context.state ≠ .closed

def events (m : SshSessionManager) (handle : SshSessionHandle)
    (afterSequence : Nat) : List SshEventEnvelope :=
  match m.resolveLocked handle with
  | .error _ => []
  | .ok entry => entry.events.filter fun event =>
    event.sequence > afterSequence

end SshSessionManager

-- ==================================== runs

inductive SessionOp where
  | registerSession (handle : SshSessionHandle) (host : List UInt8)
      (port : Int)
  | closeSession (handle : SshSessionHandle) (remove : Bool)
  | transition (handle : SshSessionHandle) (state : SshSessionLifecycleState)
      (eventType payloadJson : List UInt8) (priority timestampMs : Nat)
  | setBackgroundLimited (handle : SshSessionHandle) (limited : Bool)
      (reason : List UInt8) (timestampMs : Nat)
deriving DecidableEq, Repr

def SessionOp.handle : SessionOp → SshSessionHandle
  | .registerSession handle _ _ => handle
  | .closeSession handle _ => handle
  | .transition handle _ _ _ _ _ => handle
  | .setBackgroundLimited handle _ _ _ => handle

namespace SshSessionManager

def step (m : SshSessionManager) : SessionOp → SshSessionManager
  | .registerSession handle host port => (m.registerSession handle host port).2
  | .closeSession handle remove => (m.closeSession handle remove).2
  | .transition handle state eventType payloadJson priority timestampMs =>
    (m.transition handle state eventType payloadJson priority
      timestampMs).2
  | .setBackgroundLimited handle limited reason timestampMs =>
    (m.setBackgroundLimited handle limited reason timestampMs).2

/-- The sequence of the session has a next number, on 64 bits. -/
def HasNext (entry : Entry) : Prop :=
  entry.context.eventSequence + 1 < 2 ^ 64

/-- No sequence wraps around, and `setBackgroundLimited` finds room for
its event. -/
def Within (m : SshSessionManager) (op : SessionOp) : Prop :=
  match m.owned op.handle with
  | .error _ => True
  | .ok entry =>
    match op with
    | .registerSession _ _ _ => True
    | .closeSession _ remove => remove = true ∨ HasNext entry
    | .transition _ _ _ _ _ _ => HasNext entry
    | .setBackgroundLimited _ _ _ _ =>
      HasNext entry ∧ entry.events.length < kMaxEventsPerSession

instance (entry : Entry) : Decidable (HasNext entry) :=
  inferInstanceAs (Decidable (_ < _))

instance (m : SshSessionManager) (op : SessionOp) :
    Decidable (m.Within op) := by
  unfold Within
  split
  · infer_instance
  · split <;> infer_instance

-- =========================== one operation

section Step

variable {m : SshSessionManager} {handle : SshSessionHandle} {entry : Entry}
  {op : SessionOp}

/-- The numbers of the events rise, up to the number of the session. -/
def Ordered (entry : Entry) : Prop :=
  entry.events.Pairwise (fun a b => a.sequence < b.sequence)
    ∧ ∀ event ∈ entry.events, event.sequence ≤ entry.context.eventSequence

theorem owned_eq_ok (h : m.owned handle = .ok entry) :
    m.entries.lookup handle.sessionId = some entry
      ∧ entry.context.generation = handle.generation
      ∧ entry.context.channelId = handle.channelId := by
  unfold owned at h
  cases hlookup : m.entries.lookup handle.sessionId with
  | none =>
    rw [hlookup] at h
    cases h
  | some found =>
    rw [hlookup] at h
    dsimp only at h
    split at h
    · cases h
    · rename_i hhandle
      cases h
      simp only [Bool.or_eq_true, decide_eq_true_eq, not_or,
        not_not] at hhandle
      exact ⟨rfl, hhandle.1.2, hhandle.2⟩

/-- What an operation may do: nothing, a new session, or a change of the
session of its handle. -/
inductive Effect (m : SshSessionManager) (op : SessionOp) :
    SshSessionManager → Prop where
  | none : Effect m op m
  | registered (entry : Entry)
      (absent : m.entries.lookup op.handle.sessionId = Option.none)
      (fresh : entry.events = []) :
      Effect m op ⟨m.entries.insert op.handle.sessionId entry⟩
  | removed (entry : Entry) (found : m.owned op.handle = .ok entry) :
      Effect m op ⟨m.entries.erase op.handle.sessionId⟩
  | closed (entry entry' : Entry) (found : m.owned op.handle = .ok entry)
      (close : op = .closeSession op.handle false)
      (state : entry'.context.state = .closed)
      (sequence : entry'.context.eventSequence = entry.context.next)
      (events : entry'.events = entry.events) :
      Effect m op ⟨m.entries.insert op.handle.sessionId entry'⟩
  | posted (entry entry' : Entry) (event : SshEventEnvelope) (dropped : Nat)
      (found : m.owned op.handle = .ok entry)
      (within : m.Within op → HasNext entry)
      (edge : validTransition entry.context.state entry'.context.state = true)
      (sequence : entry'.context.eventSequence = entry.context.next)
      (number : event.sequence = entry'.context.eventSequence)
      (events : entry'.events = (entry.events ++ [event]).drop dropped)
      (room : m.Within op → entry.events.length < kMaxEventsPerSession
        ∨ dropped = entry.events.length + 1 - kMaxEventsPerSession) :
      Effect m op ⟨m.entries.insert op.handle.sessionId entry'⟩

theorem validTransition_self (state : SshSessionLifecycleState) :
    validTransition state state = true := by
  simp [validTransition]

theorem trim_eq (events : List SshEventEnvelope) :
    trim events = events.drop (events.length - kMaxEventsPerSession) := by
  unfold trim
  split
  · rfl
  · rename_i hfew
    rw [Nat.sub_eq_zero_of_le (Nat.le_of_not_lt hfew), List.drop_zero]

theorem registerSession_effect (host : List UInt8) (port : Int)
    (hop : op = .registerSession handle host port) :
    Effect m op (m.registerSession handle host port).2 := by
  subst hop
  unfold registerSession
  split
  · exact .none
  · split
    · exact .none
    · split
      · exact .none
      · rename_i hsome
        rw [Bool.not_eq_true, Option.isSome_eq_false_iff,
          Option.isNone_iff_eq_none] at hsome
        exact .registered _ hsome rfl

theorem closeSession_effect (remove : Bool)
    (hop : op = .closeSession handle remove) :
    Effect m op (m.closeSession handle remove).2 := by
  subst hop
  unfold closeSession
  cases hfound : m.owned handle with
  | error result => exact .none
  | ok entry =>
    cases remove with
    | true => exact .removed entry hfound
    | false => exact .closed entry _ hfound rfl rfl rfl rfl

theorem transition_effect (state : SshSessionLifecycleState)
    (eventType payloadJson : List UInt8) (priority timestampMs : Nat)
    (hop : op = .transition handle state eventType payloadJson priority
      timestampMs) :
    Effect m op (m.transition handle state eventType payloadJson priority
      timestampMs).2 := by
  subst hop
  unfold transition
  cases hfound : m.owned handle with
  | error result => exact .none
  | ok entry =>
    have hwithin : m.Within (.transition handle state eventType payloadJson
        priority timestampMs) → HasNext entry := by
      intro hwithin
      unfold Within SessionOp.handle at hwithin
      dsimp only at hwithin
      rw [hfound] at hwithin
      exact hwithin
    dsimp only
    split
    · exact .none
    · rename_i hvalid
      rw [Bool.not_eq_true, Bool.not_eq_false'] at hvalid
      let event : SshEventEnvelope := {
        sessionId := handle.sessionId
        generation := handle.generation
        channelId := handle.channelId
        sequence := entry.context.next
        timestampMs := timestampMs
        priority := priority
        type := eventType
        payloadJson := payloadJson.take 8192 }
      refine .posted entry _ event _ hfound hwithin hvalid rfl rfl
        (trim_eq _) fun _ => Or.inr ?_
      rw [List.length_append]
      rfl

theorem setBackgroundLimited_effect (limited : Bool) (reason : List UInt8)
    (timestampMs : Nat)
    (hop : op = .setBackgroundLimited handle limited reason timestampMs) :
    Effect m op
      (m.setBackgroundLimited handle limited reason timestampMs).2 := by
  subst hop
  unfold setBackgroundLimited
  cases hfound : m.owned handle with
  | error result => exact .none
  | ok entry =>
    have hwithin : m.Within (.setBackgroundLimited handle limited reason
        timestampMs) →
        HasNext entry ∧ entry.events.length < kMaxEventsPerSession := by
      intro hwithin
      unfold Within SessionOp.handle at hwithin
      dsimp only at hwithin
      rw [hfound] at hwithin
      exact hwithin
    let event : SshEventEnvelope := {
      sessionId := handle.sessionId
      generation := handle.generation
      channelId := handle.channelId
      sequence := entry.context.next
      timestampMs := timestampMs
      type := if limited then "backgroundLimited".toUTF8.toList
        else "backgroundAvailable".toUTF8.toList
      payloadJson := reason.take 1024 }
    exact .posted entry _ event 0 hfound (fun hw => (hwithin hw).1)
      (validTransition_self _) rfl rfl rfl fun hw => Or.inl (hwithin hw).2

theorem step_effect (m : SshSessionManager) (op : SessionOp) :
    Effect m op (m.step op) := by
  cases op with
  | registerSession handle host port =>
    exact registerSession_effect host port rfl
  | closeSession handle remove => exact closeSession_effect remove rfl
  | transition handle state eventType payloadJson priority timestampMs =>
    exact transition_effect state eventType payloadJson priority
      timestampMs rfl
  | setBackgroundLimited handle limited reason timestampMs =>
    exact setBackgroundLimited_effect limited reason timestampMs rfl

/-- A handle of another generation, or of another channel. -/
def Stale (handle : SshSessionHandle) (entry : Entry) : Prop :=
  entry.context.generation ≠ handle.generation
    ∨ entry.context.channelId ≠ handle.channelId

theorem step_stale (hlookup : m.entries.lookup op.handle.sessionId
      = some entry) (hstale : Stale op.handle entry) : m.step op = m := by
  have hnot : ∀ found, m.owned op.handle ≠ .ok found := by
    intro found hfound
    obtain ⟨hsome, hgeneration, hchannel⟩ := owned_eq_ok hfound
    cases hlookup.symm.trans hsome
    rcases hstale with hne | hne
    · exact hne hgeneration
    · exact hne hchannel
  generalize hstep : m.step op = m'
  have heffect := step_effect m op
  rw [hstep] at heffect
  cases heffect with
  | none => rfl
  | registered _ absent _ =>
    rw [hlookup] at absent
    cases absent
  | removed entry found => exact absurd found (hnot entry)
  | closed entry _ found _ _ _ _ => exact absurd found (hnot entry)
  | posted entry _ _ _ found _ _ _ _ _ _ => exact absurd found (hnot entry)

variable {entry' : Entry}

theorem lookup_insert_cases {id key : Nat}
    (h : (m.entries.insert key entry').lookup id = some entry) :
    id = key ∧ entry = entry' ∨ m.entries.lookup id = some entry := by
  by_cases hid : id = key
  · subst hid
    rw [AList.lookup_insert] at h
    exact Or.inl ⟨rfl, (Option.some.inj h).symm⟩
  · rw [AList.lookup_insert_ne hid] at h
    exact Or.inr h

theorem lookup_erase_some {id key : Nat}
    (h : (m.entries.erase key).lookup id = some entry) :
    m.entries.lookup id = some entry := by
  by_cases hid : id = key
  · subst hid
    rw [AList.lookup_erase] at h
    cases h
  · rwa [AList.lookup_erase_ne hid] at h

/-- What an operation may do to the sessions. -/
structure Moves (m : SshSessionManager) (op : SessionOp)
    (m' : SshSessionManager) : Prop where
  edges : ∀ id entry entry', m.entries.lookup id = some entry →
    m'.entries.lookup id = some entry' →
    validTransition entry.context.state entry'.context.state = true
      ∨ op = .closeSession op.handle false ∧ op.handle.sessionId = id
        ∧ entry'.context.state = .closed
  closed : ∀ id entry entry', m.entries.lookup id = some entry →
    m'.entries.lookup id = some entry' → entry.context.state = .closed →
    entry'.context.state = .closed
  stale : ∀ entry, m.entries.lookup op.handle.sessionId = some entry →
    Stale op.handle entry → m' = m

theorem step_edges (op : SessionOp) {id : Nat}
    (hlookup : m.entries.lookup id = some entry)
    (hlookup' : (m.step op).entries.lookup id = some entry') :
    validTransition entry.context.state entry'.context.state = true
      ∨ op = .closeSession op.handle false ∧ op.handle.sessionId = id
        ∧ entry'.context.state = .closed := by
  have heffect := step_effect m op
  generalize m.step op = m' at heffect hlookup'
  have hsame : m.entries.lookup id = some entry' →
      validTransition entry.context.state entry'.context.state = true := by
    intro hsome
    cases hlookup.symm.trans hsome
    exact validTransition_self _
  cases heffect with
  | none => exact Or.inl (hsame hlookup')
  | registered fresh absent _ =>
    rcases lookup_insert_cases hlookup' with ⟨rfl, rfl⟩ | hsome
    · rw [hlookup] at absent
      cases absent
    · exact Or.inl (hsame hsome)
  | removed _ _ => exact Or.inl (hsame (lookup_erase_some hlookup'))
  | closed _ closed _ close state _ _ =>
    rcases lookup_insert_cases hlookup' with ⟨rfl, rfl⟩ | hsome
    · exact Or.inr ⟨close, rfl, state⟩
    · exact Or.inl (hsame hsome)
  | posted before after event dropped found _ edge _ _ _ _ =>
    rcases lookup_insert_cases hlookup' with ⟨rfl, rfl⟩ | hsome
    · cases hlookup.symm.trans (owned_eq_ok found).1
      exact Or.inl edge
    · exact Or.inl (hsame hsome)

theorem validTransition_closed {state : SshSessionLifecycleState}
    (h : validTransition .closed state = true) : state = .closed := by
  unfold validTransition at h
  split at h
  · rename_i heq
    exact heq.symm
  · cases h

theorem step_moves (m : SshSessionManager) (op : SessionOp) :
    Moves m op (m.step op) := by
  refine ⟨fun id entry entry' => step_edges op, ?_, fun entry => step_stale⟩
  intro id entry entry' hlookup hlookup' hclosed
  rcases step_edges op hlookup hlookup' with hedge | ⟨-, -, hstate⟩
  · rw [hclosed] at hedge
    exact validTransition_closed hedge
  · exact hstate

-- ============================== the events

/-- The events of every session are in order and within the bound. -/
def Sound (m : SshSessionManager) : Prop :=
  ∀ id entry, m.entries.lookup id = some entry →
    Ordered entry ∧ entry.events.length ≤ kMaxEventsPerSession

theorem next_eq (h : HasNext entry) :
    entry.context.next = entry.context.eventSequence + 1 :=
  Nat.mod_eq_of_lt h

/-- The next number is above every number in use. -/
theorem Ordered.push {event : SshEventEnvelope} (h : Ordered entry)
    {dropped : Nat} (hsequence : entry'.context.eventSequence
      = entry.context.eventSequence + 1)
    (hnumber : event.sequence = entry'.context.eventSequence)
    (hevents : entry'.events = (entry.events ++ [event]).drop dropped) :
    Ordered entry' := by
  obtain ⟨hrise, hbelow⟩ := h
  have hlast : ∀ event' ∈ entry.events, event'.sequence < event.sequence := by
    intro event' hmem
    rw [hnumber, hsequence]
    exact Nat.lt_succ_of_le (hbelow event' hmem)
  have hall : (entry.events ++ [event]).Pairwise
      fun a b => a.sequence < b.sequence := by
    rw [List.pairwise_append]
    refine ⟨hrise, List.pairwise_singleton _ _, fun a ha b hb => ?_⟩
    rw [List.mem_singleton.mp hb]
    exact hlast a ha
  constructor
  · rw [hevents]
    exact hall.sublist (List.drop_sublist _ _)
  · intro event' hmem
    rw [hevents] at hmem
    rw [← hnumber]
    rcases List.mem_append.mp (List.mem_of_mem_drop hmem) with hold | hnew
    · exact (hlast event' hold).le
    · rw [List.mem_singleton.mp hnew]

theorem Sound.step (h : m.Sound) (op : SessionOp) (hwithin : m.Within op) :
    (m.step op).Sound := by
  intro id entry hlookup
  have heffect := step_effect m op
  generalize m.step op = m' at heffect hlookup
  cases heffect with
  | none => exact h id entry hlookup
  | registered fresh _ hfresh =>
    rcases lookup_insert_cases hlookup with ⟨rfl, rfl⟩ | hsome
    · simp [Ordered, hfresh]
    · exact h id entry hsome
  | removed _ _ => exact h id entry (lookup_erase_some hlookup)
  | closed before _ found close _ hsequence hevents =>
    rcases lookup_insert_cases hlookup with ⟨rfl, rfl⟩ | hsome
    · obtain ⟨⟨hrise, hbelow⟩, hlength⟩ :=
        h _ before (owned_eq_ok found).1
      have hnext : HasNext before := by
        unfold Within at hwithin
        rw [found, close] at hwithin
        exact hwithin.resolve_left (by simp)
      unfold Ordered
      rw [hevents, hsequence, next_eq hnext]
      exact ⟨⟨hrise, fun event hmem => (hbelow event hmem).trans
        (Nat.le_succ _)⟩, hlength⟩
    · exact h id entry hsome
  | posted before _ event dropped found hnext _ hsequence hnumber hevents
      hroom =>
      rcases lookup_insert_cases hlookup with ⟨rfl, rfl⟩ | hsome
      · obtain ⟨hordered, hlength⟩ := h _ before (owned_eq_ok found).1
        refine ⟨hordered.push (hsequence.trans (next_eq (hnext hwithin)))
          hnumber hevents, ?_⟩
        rw [hevents, List.length_drop, List.length_append,
          List.length_singleton]
        rcases hroom hwithin with hroom | hdropped
        · omega
        · omega
      · exact h id entry hsome

theorem Sound.events (h : m.Sound) (handle : SshSessionHandle)
    (afterSequence : Nat) :
    (m.events handle afterSequence).Pairwise
      fun a b => a.sequence < b.sequence := by
  unfold SshSessionManager.events
  split
  · exact List.Pairwise.nil
  · rename_i entry hfound
    have hlookup : m.entries.lookup handle.sessionId = some entry := by
      unfold resolveLocked at hfound
      split at hfound
      · cases hfound
      · split at hfound
        · cases hfound
        · rename_i found hsome
          split at hfound <;> cases hfound
          exact hsome
    exact (h _ entry hlookup).1.1.sublist List.filter_sublist

end Step

/-- What a run of the manager keeps to. Its sessions move along the
edges of `validTransition`, or to `closed` by `closeSession`; a closed
session stays closed; a stale handle changes nothing. As long as the run
stays within the bounds, no session retains more than
`kMaxEventsPerSession` events, and their numbers rise up to its own. -/
theorem session_manager (ops : List SessionOp) :
    let m := exec step {} ops
    (∀ op, Moves m op (m.step op))
    ∧ (Meets step Within {} ops →
      (∀ id entry, m.entries.lookup id = some entry →
        Ordered entry ∧ entry.events.length ≤ kMaxEventsPerSession)
      ∧ ∀ handle afterSequence, (m.events handle afterSequence).Pairwise
          fun a b => a.sequence < b.sequence) := by
  refine ⟨fun op => step_moves _ op, fun hmeets => ?_⟩
  have hsound : (exec step {} ops).Sound :=
    @Meets.invariant _ _ step _ Sound (fun m op h hw => h.step op hw) _ _
      hmeets (fun id entry hlookup => by cases hlookup)
  exact ⟨hsound, hsound.events⟩

/-- A session, and the background notices it is given. -/
def limited (handle : SshSessionHandle) (n : Nat) : List SessionOp :=
  .registerSession handle [104] 22
    :: List.replicate n (.setBackgroundLimited handle true [] 0)

theorem session_manager_two :
    let handle : SshSessionHandle := { sessionId := 7, generation := 9 }
    let m := exec step {} (limited handle 2)
    (m.events handle 0).map (·.sequence) = [1, 2]
      ∧ ∀ entry, m.entries.lookup 7 = some entry →
        Ordered entry ∧ entry.events.length ≤ kMaxEventsPerSession := by
  intro handle m
  obtain ⟨-, hwithin⟩ := session_manager (limited handle 2)
  exact ⟨by decide +kernel, fun entry =>
    (hwithin (by decide +kernel)).1 7 entry⟩

/-- `setBackgroundLimited` does not trim the events. -/
theorem events_beyond_bound :
    let handle : SshSessionHandle := { sessionId := 7, generation := 9 }
    ((exec step {} (limited handle 129)).entries.lookup 7).map
      (·.events.length) = some 129 := by
  decide +kernel

end SshSessionManager

end RemoteDesk.Ssh
