/-
The SSH prompt broker: a wait for an answer, and those who may answer
it (ssh_auth_prompt_broker.h).

# The grain of a step

The broker has one lock. A wait takes it twice: to put its request in
place, and, each time it is woken, to look at the flags. Between the two
anything may run, so a wait is a record of how far it has come (`Wait`);
every other operation is one section.

# What a wait knows

A wait looks at the flags of the broker and not at the request they are
about. Whether they are about its own request depends on the other
waits: `Alone` says that a wait that puts its request in place finds no
other on its way. Under it a wait returns what was accepted for its own
request (`Lawful`).

`log` is a history of the model, which no step reads.
-/
import RemoteDesk.Lib.Runs

namespace RemoteDesk.Ssh

open Lib

-- =============================== the types

structure SshAuthPrompt where
  text : List UInt8 := []
  echo : Bool := false
deriving DecidableEq, Repr

structure SshAuthPromptRequest where
  requestId : Nat := 0
  sessionId : Nat := 0
  generation : Nat := 0
  targetHost : List UInt8 := []
  hop : List UInt8 := []
  round : Nat := 0
  name : List UInt8 := []
  instruction : List UInt8 := []
  prompts : List SshAuthPrompt := []
  expiresAtMs : Nat := 0
  kind : List UInt8 := "keyboard_interactive".toUTF8.toList
  trustHostId : List UInt8 := []
  routeIdentity : List UInt8 := []
  endpointHost : List UInt8 := []
  endpointPort : Int := 0
  hostKeyHopIndex : Int := -1
  hostKeyAlgorithm : List UInt8 := []
  hostKeyFingerprintSha256 : List UInt8 := []
  hostKeyRawBase64 : List UInt8 := []
  expectedHostKeyFingerprintSha256 : List UInt8 := []
  hostKeyChanged : Bool := false
deriving DecidableEq, Repr

structure SshAuthPromptResponse where
  requestId : Nat := 0
  sessionId : Nat := 0
  generation : Nat := 0
  responses : List (List UInt8) := []
  cancelled : Bool := false
deriving DecidableEq, Repr

inductive SshAuthPromptWaitResult where
  | responded
  | cancelled
  | timedOut
  | closed
deriving DecidableEq, Repr

def kMaxPrompts : Nat := 32
def kMaxPromptBytes : Nat := 4096

/-- The arguments of `waitForResponse`. -/
structure ResponseWait where
  sessionId : Nat
  generation : Nat
  targetHost : List UInt8 := []
  hop : List UInt8 := []
  /-- Null, or what the pointer points to. -/
  name : Option (List UInt8) := none
  nameLen : Int := 0
  instruction : Option (List UInt8) := none
  instructionLen : Int := 0
  prompts : List SshAuthPrompt
deriving DecidableEq, Repr

/-- The arguments of `waitForHostKeyDecision`. -/
structure HostKeyWait where
  sessionId : Nat
  generation : Nat
  targetHost : List UInt8 := []
  hop : List UInt8 := []
  trustHostId : List UInt8 := []
  routeIdentity : List UInt8 := []
  endpointHost : List UInt8 := []
  endpointPort : Int := 0
  hopIndex : Int := 0
  algorithm : List UInt8 := []
  fingerprintSha256 : List UInt8 := []
  rawBase64 : List UInt8 := []
  expectedFingerprintSha256 : List UInt8 := []
  changed : Bool := false
deriving DecidableEq, Repr

/-- The clocks of a wait: whether its deadline is over before it starts,
and the one it tells the user. -/
structure WaitEnv where
  expired : Bool := false
  expiresAtMs : Nat := 0
deriving DecidableEq, Repr

/-- How far a wait has come. -/
inductive WaitPoint where
  | waiting
  | returned (result : SshAuthPromptWaitResult)
      (responses : List (List UInt8))
deriving DecidableEq, Repr

structure Wait where
  /-- What it has put in place, if it came so far. -/
  request : Option SshAuthPromptRequest
  /-- It hands out the responses. -/
  takes : Bool
  point : WaitPoint
deriving DecidableEq, Repr

inductive PromptEvent where
  /-- A wait puts its request in place. -/
  | asked (wait : Nat) (request : SshAuthPromptRequest)
  | accepted (requestId : Nat) (responses : List (List UInt8))
  | closed
  | reset
  | returned (wait : Nat) (request : Option SshAuthPromptRequest)
      (result : SshAuthPromptWaitResult) (responses : List (List UInt8))
deriving DecidableEq, Repr

structure SshAuthPromptBroker where
  pending : Bool := false
  responseReady : Bool := false
  cancelled : Bool := false
  closed : Bool := false
  nextRequestId : Nat := 0
  round : Nat := 0
  pendingRequest : SshAuthPromptRequest := {}
  responseValues : List (List UInt8) := []
  waits : List Wait := []
  log : List PromptEvent := []

-- ============================ the requests

def bounded (value : List UInt8) (maxLength : Nat) : List UInt8 :=
  value.take maxLength

/-- `bounded` of a pointer and a length. -/
def boundedPointer (value : Option (List UInt8)) (length : Int)
    (maxLength : Nat) : List UInt8 :=
  match value with
  | none => []
  | some bytes =>
    if length ≤ 0 then [] else bytes.take (min length.toNat maxLength)

/-- The request of `waitForResponse`, but for its number, its round and
its deadline. -/
def ResponseWait.request (w : ResponseWait) : SshAuthPromptRequest := {
  sessionId := w.sessionId
  generation := w.generation
  targetHost := bounded w.targetHost 255
  hop := bounded w.hop 96
  name := boundedPointer w.name w.nameLen 512
  instruction := boundedPointer w.instruction w.instructionLen 4096
  prompts := w.prompts.take kMaxPrompts }

def HostKeyWait.request (w : HostKeyWait) : SshAuthPromptRequest := {
  sessionId := w.sessionId
  generation := w.generation
  targetHost := bounded w.targetHost 255
  hop := bounded w.hop 96
  kind := "host_key".toUTF8.toList
  trustHostId := bounded w.trustHostId 128
  routeIdentity := bounded w.routeIdentity 4096
  endpointHost := bounded w.endpointHost 255
  endpointPort := w.endpointPort
  hostKeyHopIndex := w.hopIndex
  hostKeyAlgorithm := bounded w.algorithm 96
  hostKeyFingerprintSha256 := bounded w.fingerprintSha256 255
  hostKeyRawBase64 := bounded w.rawBase64 (64 * 1024)
  expectedHostKeyFingerprintSha256 := bounded w.expectedFingerprintSha256 255
  hostKeyChanged := w.changed }

-- ============================== the broker

namespace SshAuthPromptBroker

def clearPendingLocked (b : SshAuthPromptBroker) : SshAuthPromptBroker :=
  { b with
    pending := false
    responseReady := false
    responseValues := []
    pendingRequest := {} }

/-- A wait returns without a request in place. -/
def refuse (b : SshAuthPromptBroker) (takes : Bool)
    (result : SshAuthPromptWaitResult) : SshAuthPromptBroker :=
  { b with
    waits := b.waits ++ [⟨none, takes, .returned result []⟩]
    log := b.log ++ [.returned b.waits.length none result []] }

/-- The first section of a wait, with what comes before it. -/
def ask (b : SshAuthPromptBroker) (template : SshAuthPromptRequest)
    (takes : Bool) (env : WaitEnv) : SshAuthPromptBroker :=
  if env.expired then b.refuse takes .timedOut
  else if b.closed || b.pending then
    b.refuse takes (if b.closed then .closed else .cancelled)
  else
    let request := { template with
      requestId := (b.nextRequestId + 1) % 2 ^ 64
      round := (b.round + 1) % 2 ^ 32
      expiresAtMs := env.expiresAtMs }
    { b with
      nextRequestId := request.requestId
      round := request.round
      pendingRequest := request
      pending := true
      responseReady := false
      cancelled := false
      responseValues := []
      waits := b.waits ++ [⟨some request, takes, .waiting⟩]
      log := b.log ++ [.asked b.waits.length request] }

def waitForResponse (b : SshAuthPromptBroker) (w : ResponseWait)
    (env : WaitEnv) : SshAuthPromptBroker :=
  if w.prompts = [] then b.refuse true .responded
  else b.ask w.request true env

def waitForHostKeyDecision (b : SshAuthPromptBroker) (w : HostKeyWait)
    (env : WaitEnv) : SshAuthPromptBroker :=
  b.ask w.request false env

/-- What a wait makes of the flags. -/
def verdict (b : SshAuthPromptBroker) : SshAuthPromptWaitResult :=
  if b.closed then .closed
  else if b.cancelled then .cancelled
  else if !b.responseReady then .timedOut
  else .responded

/-- A wait has the lock again, woken or at its deadline. -/
def wake (b : SshAuthPromptBroker) (k : Nat) (timedOut : Bool) :
    SshAuthPromptBroker :=
  match b.waits[k]? with
  | some ⟨request, takes, .waiting⟩ =>
    if !b.responseReady && !b.cancelled && !b.closed && !timedOut then b
    else
      let result := b.verdict
      let responses :=
        if result = .responded && takes then b.responseValues else []
      let b := b.clearPendingLocked
      { b with
        waits := b.waits.set k ⟨request, takes, .returned result responses⟩
        log := b.log ++ [.returned k request result responses] }
  | _ => b

def respond (b : SshAuthPromptBroker) (response : SshAuthPromptResponse) :
    Bool × SshAuthPromptBroker :=
  if !b.pending || b.closed
      || response.requestId ≠ b.pendingRequest.requestId
      || response.sessionId ≠ b.pendingRequest.sessionId
      || response.generation ≠ b.pendingRequest.generation
      || response.cancelled || b.responseReady
      || response.responses.length ≠ b.pendingRequest.prompts.length then
    (false, b)
  else if response.responses.any fun value =>
      value.length > kMaxPromptBytes then
    (false, b)
  else
    (true, { b with
      responseValues := response.responses
      responseReady := true
      log := b.log ++ [.accepted response.requestId response.responses] })

def cancel (b : SshAuthPromptBroker)
    (requestId sessionId generation : Nat) : Bool × SshAuthPromptBroker :=
  if !b.pending || b.closed || requestId ≠ b.pendingRequest.requestId
      || sessionId ≠ b.pendingRequest.sessionId
      || generation ≠ b.pendingRequest.generation then
    (false, b)
  else (true, { b with cancelled := true })

def cancelAll (b : SshAuthPromptBroker) : SshAuthPromptBroker :=
  { b with cancelled := true }

def close (b : SshAuthPromptBroker) : SshAuthPromptBroker :=
  let b := { b with closed := true, cancelled := true }.clearPendingLocked
  { b with log := b.log ++ [.closed] }

def resetForNewConnection (b : SshAuthPromptBroker) : SshAuthPromptBroker :=
  let b := { b with
    closed := false
    cancelled := false
    round := 0 }.clearPendingLocked
  { b with log := b.log ++ [.reset] }

end SshAuthPromptBroker

-- ==================================== runs

inductive PromptOp where
  | waitForResponse (wait : ResponseWait) (env : WaitEnv)
  | waitForHostKeyDecision (wait : HostKeyWait) (env : WaitEnv)
  | wake (k : Nat) (timedOut : Bool)
  | respond (response : SshAuthPromptResponse)
  | cancel (requestId sessionId generation : Nat)
  | cancelAll
  | close
  | resetForNewConnection
deriving DecidableEq, Repr

namespace SshAuthPromptBroker

def step (b : SshAuthPromptBroker) : PromptOp → SshAuthPromptBroker
  | .waitForResponse wait env => b.waitForResponse wait env
  | .waitForHostKeyDecision wait env => b.waitForHostKeyDecision wait env
  | .wake k timedOut => b.wake k timedOut
  | .respond response => (b.respond response).2
  | .cancel requestId sessionId generation =>
    (b.cancel requestId sessionId generation).2
  | .cancelAll => b.cancelAll
  | .close => b.close
  | .resetForNewConnection => b.resetForNewConnection

/-- A wait has put its request in place and has not returned. -/
def busy (b : SshAuthPromptBroker) : Bool :=
  b.waits.any fun wait => wait.point = .waiting

/-- The operation would put a request in place. -/
def asks (b : SshAuthPromptBroker) : PromptOp → Bool
  | .waitForResponse wait env =>
    wait.prompts ≠ [] && !env.expired && !b.closed && !b.pending
  | .waitForHostKeyDecision _ env =>
    !env.expired && !b.closed && !b.pending
  | _ => false

/-- A request is put in place when no wait is on its way. -/
def Alone (b : SshAuthPromptBroker) (op : PromptOp) : Prop :=
  b.asks op = true → b.busy = false

instance (b : SshAuthPromptBroker) (op : PromptOp) : Decidable (b.Alone op) :=
  inferInstanceAs (Decidable (_ → _))

/-- What a wait returns, given what happened before. With a request, it
returns `responded` when exactly one response was accepted since the
request was put in place, for its number and with these values, no other
request was put in place since, and the broker was not closed. -/
def Lawful (before : List PromptEvent) : PromptEvent → Prop
  | .returned wait (some request) .responded responses =>
    ∃ p q, before = p ++ .asked wait request :: q
      ∧ .accepted request.requestId responses ∈ q
      ∧ (∀ id values, .accepted id values ∈ q →
        id = request.requestId ∧ values = responses)
      ∧ (∀ wait' request', .asked wait' request' ∉ q)
      ∧ .closed ∉ q
  | .returned _ none .responded responses => responses = []
  | _ => True

-- ========================== the invariants

/-- The request of a wait on its way. As long as the broker has a request
pending it is this one, it has not been closed since, and what was
accepted since is what it holds. -/
def Open (b : SshAuthPromptBroker) (k : Nat)
    (request : SshAuthPromptRequest) : Prop :=
  ∃ p q, b.log = p ++ .asked k request :: q
    ∧ (∀ wait' request', .asked wait' request' ∉ q)
    ∧ (b.pending = true → b.pendingRequest = request ∧ .closed ∉ q
      ∧ ∀ id values, .accepted id values ∈ q → b.responseReady = true
        ∧ id = request.requestId ∧ values = b.responseValues)
    ∧ (b.responseReady = true →
      .accepted request.requestId b.responseValues ∈ q)

structure Sound (b : SshAuthPromptBroker) : Prop where
  lawful : EveryAt Lawful b.log
  ready : b.responseReady = true → b.pending = true
    ∧ b.responseValues.length = b.pendingRequest.prompts.length
  alone : ∀ (k k' : Nat) (w w' : Wait), b.waits[k]? = some w →
    b.waits[k']? = some w' → w.point = .waiting → w'.point = .waiting →
    k = k'
  waiting : ∀ (k : Nat) (w : Wait), b.waits[k]? = some w →
    w.point = .waiting → ∃ request, w.request = some request
      ∧ (w.takes = false → request.prompts = []) ∧ b.Open k request

section Sound

variable {b b' : SshAuthPromptBroker} {k : Nat}
  {request : SshAuthPromptRequest} {l : List PromptEvent}

/-- The request is cleared, or nothing is said about it. -/
theorem Open.frame (h : b.Open k request) (hlog : b'.log = b.log ++ l)
    (hasked : ∀ wait' request', .asked wait' request' ∉ l)
    (hkeep : b'.pending = true → b.pending = true
      ∧ b'.pendingRequest = b.pendingRequest
      ∧ b'.responseReady = b.responseReady
      ∧ b'.responseValues = b.responseValues ∧ .closed ∉ l
      ∧ ∀ id values, .accepted id values ∉ l)
    (hready : b'.responseReady = true → b.responseReady = true
      ∧ b'.responseValues = b.responseValues) : b'.Open k request := by
  obtain ⟨p, q, hsplit, hquiet, hpending, haccepted⟩ := h
  refine ⟨p, q ++ l, ?_, ?_, ?_, ?_⟩
  · rw [hlog, hsplit]
    simp
  · intro wait' request' hm
    rcases List.mem_append.mp hm with hm | hm
    · exact hquiet _ _ hm
    · exact hasked _ _ hm
  · intro hp
    obtain ⟨hp, hrequest, hr, hvalues, hclosed, hnone⟩ := hkeep hp
    obtain ⟨heq, hopen, hheld⟩ := hpending hp
    refine ⟨hrequest.trans heq, ?_, ?_⟩
    · intro hm
      rcases List.mem_append.mp hm with hm | hm
      · exact hopen hm
      · exact hclosed hm
    · intro id values hm
      rw [hr, hvalues]
      rcases List.mem_append.mp hm with hm | hm
      · exact hheld id values hm
      · exact absurd hm (hnone id values)
  · intro hr
    obtain ⟨hr, hvalues⟩ := hready hr
    rw [hvalues]
    exact List.mem_append_left _ (haccepted hr)

/-- The waits stay as they are. -/
theorem Sound.frame (h : b.Sound) (hwaits : b'.waits = b.waits)
    (hlog : b'.log = b.log ++ l)
    (hl : ∀ e ∈ l, e = .closed ∨ e = .reset)
    (hclosed : b'.pending = true → l = [])
    (hready : b'.responseReady = true → b'.pending = true)
    (hsame : b'.pending = true → b'.pending = b.pending
      ∧ b'.pendingRequest = b.pendingRequest
      ∧ b'.responseReady = b.responseReady
      ∧ b'.responseValues = b.responseValues) : b'.Sound := by
  have hnone : ∀ {e : PromptEvent}, e ≠ .closed → e ≠ .reset → e ∉ l := by
    intro e hne hne' hm
    rcases hl e hm with heq | heq
    · exact hne heq
    · exact hne' heq
  constructor
  · rw [hlog]
    refine h.lawful.append fun e he pre _ => ?_
    rcases hl e he with rfl | rfl <;> trivial
  · intro hr
    obtain ⟨-, hrequest, hready', hvalues⟩ := hsame (hready hr)
    rw [hready'] at hr
    rw [hrequest, hvalues]
    exact ⟨hready (hready'.trans hr), (h.ready hr).2⟩
  · rw [hwaits]
    exact h.alone
  · intro k w hw hpoint
    rw [hwaits] at hw
    obtain ⟨request, hsome, htakes, hopen⟩ := h.waiting k w hw hpoint
    refine ⟨request, hsome, htakes, hopen.frame hlog
      (fun _ _ => hnone (by simp) (by simp)) (fun hp => ?_) (fun hr => ?_)⟩
    · obtain ⟨hpending, hrequest, hready', hvalues⟩ := hsame hp
      refine ⟨hpending ▸ hp, hrequest, hready', hvalues, ?_, fun _ _ =>
        hnone (by simp) (by simp)⟩
      rw [hclosed hp]
      exact List.not_mem_nil
    · obtain ⟨-, -, hready', hvalues⟩ := hsame (hready hr)
      exact ⟨hready' ▸ hr, hvalues⟩

theorem waits_append {w w' : Wait}
    (h : (b.waits ++ [w'])[k]? = some w) :
    b.waits[k]? = some w ∨ k = b.waits.length ∧ w = w' := by
  rw [List.getElem?_append] at h
  split at h
  · exact Or.inl h
  · rename_i hlen
    obtain ⟨hlt, hget⟩ := List.getElem?_eq_some_iff.mp h
    rw [List.length_singleton] at hlt
    refine Or.inr ⟨by omega, ?_⟩
    rw [← hget]
    simp

/-- A wait that returns without a request leaves the others alone. -/
theorem Sound.refuse (h : b.Sound) (takes : Bool)
    (result : SshAuthPromptWaitResult) : (b.refuse takes result).Sound := by
  have hold : ∀ {k : Nat} {w : Wait},
      (b.refuse takes result).waits[k]? = some w → w.point = .waiting →
      b.waits[k]? = some w := by
    intro k w hw hpoint
    rcases waits_append hw with hw | ⟨-, rfl⟩
    · exact hw
    · cases hpoint
  constructor
  · refine everyAt_snoc.mpr ⟨h.lawful, ?_⟩
    cases result <;> trivial
  · exact h.ready
  · exact fun k k' w w' hw hw' hp hp' =>
      h.alone k k' w w' (hold hw hp) (hold hw' hp') hp hp'
  · intro k w hw hpoint
    obtain ⟨request, hsome, htakes, hopen⟩ :=
      h.waiting k w (hold hw hpoint) hpoint
    exact ⟨request, hsome, htakes, hopen.frame rfl (by simp)
      (fun hp => ⟨hp, rfl, rfl, rfl, by simp, by simp⟩)
      (fun hr => ⟨hr, rfl⟩)⟩

theorem Sound.ask (h : b.Sound) {template : SshAuthPromptRequest}
    {takes : Bool} (env : WaitEnv)
    (htakes : takes = false → template.prompts = [])
    (halone : (!env.expired && !b.closed && !b.pending) = true →
      b.busy = false) : (b.ask template takes env).Sound := by
  unfold SshAuthPromptBroker.ask
  split
  · exact h.refuse _ _
  · rename_i hexpired
    split
    · exact h.refuse _ _
    · rename_i hfree
      have hidle : ∀ {k : Nat} {w : Wait}, b.waits[k]? = some w →
          w.point ≠ .waiting := by
        intro k w hw hpoint
        have hbusy := halone (by
          rw [Bool.not_eq_true, Bool.or_eq_false_iff] at hfree
          rw [Bool.not_eq_true] at hexpired
          rw [hexpired, hfree.1, hfree.2]
          rfl)
        unfold busy at hbusy
        rw [List.any_eq_false] at hbusy
        exact hbusy w (List.mem_of_getElem? hw) (decide_eq_true hpoint)
      constructor
      · exact everyAt_snoc.mpr ⟨h.lawful, trivial⟩
      · exact fun hr => by cases hr
      · intro k k' w w' hw hw' hp hp'
        rcases waits_append hw with hw | ⟨rfl, -⟩
        · exact absurd hp (hidle hw)
        · rcases waits_append hw' with hw' | ⟨rfl, -⟩
          · exact absurd hp' (hidle hw')
          · rfl
      · intro k w hw hpoint
        rcases waits_append hw with hw | ⟨rfl, rfl⟩
        · exact absurd hpoint (hidle hw)
        · refine ⟨_, rfl, htakes, b.log, [], rfl, by simp, fun _ => ?_,
            fun hr => by cases hr⟩
          exact ⟨rfl, by simp, by simp⟩

/-- A wait that looks at the flags returns what they say of its own
request. -/
theorem Sound.wake (h : b.Sound) (k : Nat) (timedOut : Bool) :
    (b.wake k timedOut).Sound := by
  unfold SshAuthPromptBroker.wake
  split
  · rename_i request? takes hk
    split
    · exact h
    · obtain ⟨request, hrequest, htakes, hopen⟩ := h.waiting k _ hk rfl
      dsimp only at hrequest htakes
      subst hrequest
      have hother : ∀ {k' : Nat} {w x : Wait}, x.point ≠ .waiting →
          (b.waits.set k x)[k']? = some w → w.point ≠ .waiting := by
        intro k' w x hx hw hpoint
        by_cases hne : k = k'
        · subst hne
          rw [List.getElem?_set_self (List.getElem?_eq_some_iff.mp hk).1]
            at hw
          cases hw
          exact hx hpoint
        · rw [List.getElem?_set_ne hne] at hw
          exact hne (h.alone k k' _ w hk hw rfl hpoint)
      constructor
      · refine everyAt_snoc.mpr ⟨h.lawful, ?_⟩
        cases hverdict : b.verdict with
        | responded =>
          have hready : b.responseReady = true := by
            unfold verdict at hverdict
            split at hverdict
            · cases hverdict
            · split at hverdict
              · cases hverdict
              · split at hverdict
                · cases hverdict
                · rename_i hr
                  simpa using hr
          obtain ⟨p, q, hsplit, hquiet, hpending, haccepted⟩ := hopen
          obtain ⟨hp, hlength⟩ := h.ready hready
          obtain ⟨heq, hclosed, hheld⟩ := hpending hp
          have hvalues : (if SshAuthPromptWaitResult.responded = .responded
              && takes then b.responseValues else [])
              = b.responseValues := by
            cases takes with
            | true => rfl
            | false =>
              rw [heq, htakes rfl] at hlength
              exact (List.eq_nil_of_length_eq_zero hlength).symm
          rw [hvalues]
          exact ⟨p, q, hsplit, haccepted hready,
            fun id values hm => (hheld id values hm).2, hquiet, hclosed⟩
        | cancelled => trivial
        | timedOut => trivial
        | closed => trivial
      · exact fun hr => by cases hr
      · exact fun k' k'' w w' hw hw' hp =>
          absurd hp (hother (fun hx => by cases hx) hw)
      · exact fun k' w hw hp =>
          absurd hp (hother (fun hx => by cases hx) hw)
  · exact h

theorem Sound.respond (h : b.Sound) (response : SshAuthPromptResponse) :
    (b.respond response).2.Sound := by
  unfold SshAuthPromptBroker.respond
  split
  · exact h
  · rename_i hfits
    simp only [Bool.or_eq_true, Bool.not_eq_true', decide_eq_true_eq, not_or,
      not_not, Bool.not_eq_false, Bool.not_eq_true] at hfits
    obtain ⟨⟨⟨⟨⟨⟨⟨hp, -⟩, hid⟩, -⟩, -⟩, -⟩, hfresh⟩, hlength⟩ := hfits
    split
    · exact h
    · constructor
      · exact everyAt_snoc.mpr ⟨h.lawful, trivial⟩
      · exact fun _ => ⟨hp, hlength⟩
      · exact h.alone
      · intro k w hw hpoint
        obtain ⟨request, hsome, htakes, p, q, hsplit, hquiet, hpending, -⟩ :=
          h.waiting k w hw hpoint
        obtain ⟨heq, hclosed, hheld⟩ := hpending hp
        refine ⟨request, hsome, htakes, p,
          q ++ [.accepted response.requestId response.responses], ?_, ?_,
          fun _ => ⟨heq, ?_, ?_⟩, fun _ => ?_⟩
        · change b.log ++ _ = _
          rw [hsplit]
          simp
        · intro wait' request' hm
          rcases List.mem_append.mp hm with hm | hm
          · exact hquiet _ _ hm
          · simp at hm
        · intro hm
          rcases List.mem_append.mp hm with hm | hm
          · exact hclosed hm
          · simp at hm
        · intro id values hm
          rcases List.mem_append.mp hm with hm | hm
          · -- nothing was accepted before
            have hready := (hheld id values hm).1
            rw [hfresh] at hready
            cases hready
          · cases List.mem_singleton.mp hm
            exact ⟨rfl, heq ▸ hid, rfl⟩
        · rw [← heq, ← hid]
          exact List.mem_append_right _ (List.mem_singleton_self _)

theorem Sound.step (h : b.Sound) (op : PromptOp) (halone : b.Alone op) :
    (b.step op).Sound := by
  cases op with
  | waitForResponse wait env =>
    change (b.waitForResponse wait env).Sound
    unfold SshAuthPromptBroker.waitForResponse
    split
    · exact h.refuse _ _
    · rename_i hne
      refine h.ask env (fun ht => by cases ht) fun hasks => halone ?_
      rw [asks, decide_eq_true hne, Bool.true_and]
      exact hasks
  | waitForHostKeyDecision wait env =>
    exact h.ask env (fun _ => rfl) halone
  | wake k timedOut => exact h.wake k timedOut
  | respond response => exact h.respond response
  | cancel requestId sessionId generation =>
    change (b.cancel requestId sessionId generation).2.Sound
    unfold SshAuthPromptBroker.cancel
    split
    · exact h
    · exact h.frame (l := []) rfl (List.append_nil _).symm (by simp)
        (fun _ => rfl) (fun hr => (h.ready hr).1)
        fun _ => ⟨rfl, rfl, rfl, rfl⟩
  | cancelAll =>
    exact h.frame (l := []) rfl (List.append_nil _).symm (by simp)
      (fun _ => rfl) (fun hr => (h.ready hr).1)
      fun _ => ⟨rfl, rfl, rfl, rfl⟩
  | close =>
    exact h.frame (l := [.closed]) rfl rfl (by simp)
      (fun hp => by cases hp) (fun hr => by cases hr)
      fun hp => by cases hp
  | resetForNewConnection =>
    exact h.frame (l := [.reset]) rfl rfl (by simp)
      (fun hp => by cases hp) (fun hr => by cases hr)
      fun hp => by cases hp

end Sound

/-- Every wait of a run in which requests are put in place one at a time
returns what was accepted for its own request. -/
theorem prompt_broker {ops : List PromptOp} (h : Meets step Alone {} ops) :
    EveryAt Lawful (exec step {} ops).log := by
  have hstart : ({} : SshAuthPromptBroker).Sound := by
    constructor <;> simp
  have hsound := @Meets.invariant _ _ step _ Sound
    (fun b op hb ha => hb.step op ha) _ _ h hstart
  exact hsound.lawful

/-- A password prompt that is answered. -/
def answered : List PromptOp :=
  let reply : SshAuthPromptResponse :=
    { requestId := 1
      sessionId := 4
      generation := 9
      responses := [[115]] }
  [.waitForResponse ⟨4, 9, [], [], none, 0, none, 0, [{}]⟩ {},
    .respond reply, .wake 0 false]

theorem prompt_broker_answered :
    let log := (exec step {} answered).log
    EveryAt Lawful log
      ∧ log.map (fun e => match e with
        | .returned k _ result responses => some (k, result, responses)
        | _ => none) = [none, none, some (0, .responded, [[115]])] :=
  ⟨prompt_broker (by decide +kernel), by decide +kernel⟩

/-- A prompt is closed before its wait looks, and another takes its
place. -/
def overtaken : List PromptOp :=
  let reply : SshAuthPromptResponse :=
    { requestId := 2
      sessionId := 4
      generation := 10
      responses := [[115]] }
  [.waitForResponse ⟨4, 9, [], [], none, 0, none, 0, [{}]⟩ {}, .close,
    .resetForNewConnection,
    .waitForResponse ⟨4, 10, [], [], none, 0, none, 0, [{}]⟩ {},
    .respond reply, .wake 0 false]

/-- The first wait, closed while it was pending, returns the response to
the second. -/
theorem response_to_another :
    let b := exec step {} overtaken
    b.log.map (fun e => match e with
        | .asked k request => some (k, request.requestId)
        | .accepted id _ => some (2, id)
        | _ => none) = [some (0, 1), none, none, some (1, 2), some (2, 2), none]
      ∧ .closed ∈ b.log
      ∧ b.waits.map (·.point) = [.returned .responded [[115]], .waiting] := by
  decide +kernel

end SshAuthPromptBroker

end RemoteDesk.Ssh
