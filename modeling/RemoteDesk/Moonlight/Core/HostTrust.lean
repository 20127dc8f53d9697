/-
Plaintext never passes for authenticated
(moonlight/core/MoonlightHostApi.cpp).

A result of ServerInfo for a pinned host that is no candidate comes from its
secure run: the run over HTTPS decides it from the port it was tried on and
from what it met there. Plaintext answers choose that port, and leave the
diagnostics of their attempts in front (`Trusted`). Ports are learned from
HTTPS only (`LearnsSecurely`).
-/
import RemoteDesk.Moonlight.Core.HostAttempts

namespace RemoteDesk.Moonlight.Core

open Lib

-- ================================== errors

/-- An answer that is refused is refused with an error. -/
def Named {α : Type} (answer : Answer α) : Prop := answer ≠ .error .None

theorem named_ok {α : Type} (value : α) : Named (.ok value : Answer α) :=
  nofun

theorem named_error {α : Type} {error : MoonlightHostError}
    (h : error ≠ .None) : Named (.error error : Answer α) :=
  fun heq => h (Except.error.inj heq)

theorem named_bind {α β : Type} {answer : Answer α} {next : α → Answer β}
    (hanswer : Named answer) (hnext : ∀ value, Named (next value)) :
    Named (answer >>= next) := by
  cases answer with
  | error error => exact fun heq => hanswer (congrArg _ (Except.error.inj heq))
  | ok value => exact hnext value

theorem named_map {α β : Type} {answer : Answer α} {f : α → β}
    (hanswer : Named answer) : Named (answer.map f) := by
  cases answer with
  | error error => exact fun heq => hanswer (congrArg _ (Except.error.inj heq))
  | ok value => exact nofun

theorem named_findUniqueChild (root : XmlNode) (name : HostText) :
    Named (findUniqueChild root name) := by
  unfold findUniqueChild
  split <;> exact nofun

theorem named_requiredText (root : XmlNode) (name : HostText) (budget : Nat) :
    Named (requiredText root name budget) := by
  refine named_bind (named_findUniqueChild root name) fun node => ?_
  split
  · exact nofun
  · split
    · exact nofun
    · split <;> exact nofun

theorem named_optionalText (root : XmlNode) (name : HostText) (budget : Nat) :
    Named (optionalText root name budget) := by
  refine named_bind (named_findUniqueChild root name) fun node => ?_
  split
  · exact nofun
  · split
    · exact nofun
    · split <;> exact nofun

theorem named_optionalUnsigned (maximum : Nat) (root : XmlNode)
    (name : HostText) : Named (optionalUnsigned maximum root name) := by
  refine named_bind (named_optionalText root name _) fun text => ?_
  split
  · exact nofun
  · split <;> exact nofun

theorem named_parseVersion (value : HostText) : Named (parseVersion value) := by
  unfold parseVersion
  split <;> exact nofun

theorem named_parseRoot (body : HostText) : Named (parseRoot body).2 := by
  unfold parseRoot
  split
  · exact named_error nofun
  · exact named_error nofun
  · split
    · exact named_error nofun
    · split
      · exact named_error nofun
      · split
        · exact named_error nofun
        · extract_lets status
          dsimp only
          split
          · exact named_error nofun
          · split
            · exact named_ok _
            · exact named_error nofun

theorem named_parseServerInfo (root : XmlNode) :
    Named (parseServerInfo root) := by
  unfold parseServerInfo
  refine named_bind (named_requiredText root _ _) fun _ => ?_
  refine named_bind (named_requiredText root _ _) fun _ => ?_
  refine named_bind (named_parseVersion _) fun _ => ?_
  refine named_bind (named_requiredText root _ _) fun _ => ?_
  refine named_bind (named_requiredText root _ _) fun _ => ?_
  extract_lets rest
  have hrest : Named (rest ()) := by
    refine named_bind (named_requiredText root _ _) fun _ => ?_
    split
    swap
    · exact named_error nofun
    refine named_bind (named_optionalText root _ _) fun _ => ?_
    refine named_bind (named_optionalText root _ _) fun _ => ?_
    refine named_bind (named_optionalText root _ _) fun _ => ?_
    refine named_bind (named_optionalText root _ _) fun _ => ?_
    refine named_bind (named_optionalText root _ _) fun _ => ?_
    refine named_bind (named_optionalUnsigned _ root _) fun _ => ?_
    refine named_bind (named_optionalUnsigned _ root _) fun _ => ?_
    refine named_bind (named_optionalUnsigned _ root _) fun _ => ?_
    refine named_bind (named_optionalUnsigned _ root _) fun _ => ?_
    refine named_bind (named_optionalUnsigned _ root _) fun _ => ?_
    extract_lets last
    have hlast : Named (last ()) := named_ok _
    split
    · exact named_error nofun
    · exact hlast
  split
  · exact named_error nofun
  · exact hrest

theorem interruption_named {check : Check} {error : MoonlightHostError}
    (hstop : interruption check ≠ .None) (hclosed : error = interruption check
      ∨ error = .ActionUnknown) : error ≠ .None := by
  rcases hclosed with rfl | rfl
  · exact hstop
  · exact nofun

theorem mapTransportError_named {error : MoonlightTransportError}
    (h : error ≠ .None) : mapTransportError error ≠ .None := by
  cases error with
  | None => exact absurd rfl h
  | _ => exact nofun

variable {order : RunOrder} {commit : Check}
variable {diagnostic : MoonlightHostDiagnostic}
variable {outcome : MoonlightTransportOutcome} {result : MoonlightHostResult}

theorem requestFor_named {address : MoonlightHostAddress}
    {uuid : Option HostText} : Named (requestFor order address uuid) := by
  unfold requestFor
  split
  · exact named_error (by decide)
  · refine named_map ?_
    unfold buildUrl
    split
    · exact named_error (by decide)
    · dsimp only
      split
      · exact named_error (by decide)
      · exact named_ok _

-- ================================= answers

/-- A body that tells the server information. -/
def Tells (body : HostText) (info : MoonlightServerInfo) : Prop :=
  ∃ root, (parseRoot body).2 = .ok root ∧ parseServerInfo root = .ok info

/-- What an attempt for the server information makes of a body. -/
structure ReadFrom (order : RunOrder) (body : HostText) (tried : Attempted) :
    Prop where
  told : tried.result.error = .None → ∃ info, Tells body info
    ∧ tried.result.serverInfo = some info
  learned : ∀ port, tried.learned = some port →
    tried.result.error = .None ∧ (order.scheme = .Https
      ∨ order.call.endpoint.pinnedTrustAvailable = false)
      ∧ tried.result.serverInfo.bind (·.httpsPort) = some port
  last : tried.result.error = .None → tried.again = false

theorem ReadFrom.of_error {body : HostText} {tried : Attempted}
    (herror : tried.result.error ≠ .None)
    (hlearned : tried.learned = none) : ReadFrom order body tried where
  told h := absurd h herror
  learned port h := by
    rw [hlearned] at h
    cases h
  last h := absurd h herror

theorem closeInterrupted_error (shape : QueryShape)
    (outcome : MoonlightTransportOutcome) {check : Check}
    (diagnostic : MoonlightHostDiagnostic) (result : MoonlightHostResult)
    (hstop : interruption check ≠ .None) :
    (closeInterrupted shape outcome (interruption check) diagnostic
      result).error ≠ .None := by
  unfold closeInterrupted
  split
  · exact interruption_named hstop (.inr rfl)
  · exact interruption_named hstop (.inl rfl)

theorem commitAnswer_read {winner body : HostText} {info : MoonlightServerInfo}
    (htells : Tells body info) :
    ReadFrom order body (commitAnswer order outcome winner commit
      (.ServerInfo info) diagnostic result) := by
  unfold commitAnswer
  dsimp only
  by_cases hstop : interruption commit = .None
  · rw [if_neg (not_not.2 hstop)]
    refine ⟨fun _ => ⟨info, htells, rfl⟩, fun port hport => ?_, fun _ => rfl⟩
    dsimp only at hport
    split at hport
    · rename_i hlearns
      refine ⟨rfl, ?_, hport⟩
      simpa using hlearns.2
    · cases hport
  · rw [if_pos hstop]
    exact .of_error (closeInterrupted_error _ _ _ _ hstop) rfl

section Readings

variable (hoperation : order.operation = .ServerInfo)

include hoperation in
theorem readXml_read {winner : HostText} :
    ReadFrom order outcome.body
      (readXml order outcome winner commit diagnostic result) := by
  have hnamed : ∀ error, parseAnswer order.operation outcome.body
      = .error error → error ≠ .None := by
    rintro error hparsed rfl
    refine named_bind (named_parseRoot outcome.body) (fun root => ?_) hparsed
    rw [hoperation]
    exact named_map (named_parseServerInfo root)
  unfold readXml
  dsimp only
  cases hparsed : parseAnswer order.operation outcome.body with
  | error error =>
    exact .of_error (hnamed error hparsed) rfl
  | ok answer =>
    rw [parseAnswer, hoperation] at hparsed
    cases hroot : (parseRoot outcome.body).2 with
    | error error =>
      rw [hroot] at hparsed
      cases hparsed
    | ok root =>
      cases hinfo : parseServerInfo root with
      | error error =>
        rw [hroot] at hparsed
        simp [Except.bind, answerOf, hinfo, Except.map] at hparsed
      | ok info =>
        have hanswer : answer = .ServerInfo info := by
          rw [hroot] at hparsed
          simp [Except.bind, answerOf, hinfo, Except.map] at hparsed
          exact hparsed.symm
        rw [hanswer]
        exact commitAnswer_read ⟨root, hroot, hinfo⟩

include hoperation in
theorem readResponse_read (inetPton : HostText → Option HostText)
    (hxml : order.shape.xmlResponse = true) :
    ReadFrom order outcome.body
      (readResponse inetPton order outcome commit diagnostic result) := by
  unfold readResponse
  split
  · refine .of_error ?_ rfl
    show httpError outcome.httpStatus ≠ .None
    unfold httpError
    split
    · exact nofun
    · split <;> exact nofun
  · split
    · exact .of_error nofun rfl
    · exact readXml_read hoperation

include hoperation in
/-- What an attempt for the server information makes of an outcome. -/
theorem readOutcome_read (inetPton : HostText → Option HostText)
    (more : Bool) (world : AttemptWorld) (outcome : MoonlightTransportOutcome)
    (diagnostic : MoonlightHostDiagnostic) (result : MoonlightHostResult)
    (hxml : order.shape.xmlResponse = true) :
    ReadFrom order outcome.body
      (readOutcome inetPton order more world outcome diagnostic result) := by
  unfold readOutcome
  dsimp only
  split
  · rename_i hstop
    exact .of_error (closeInterrupted_error _ _ _ _ hstop) rfl
  · split
    · rename_i herror
      have hnamed : transportError order.shape (bounded outcome) ≠ .None := by
        unfold transportError
        split
        · exact nofun
        · exact mapTransportError_named herror
      split
      · exact .of_error hnamed rfl
      · split <;> exact .of_error hnamed rfl
    · rename_i hnone
      rw [bounded_of_none (not_not.1 hnone)]
      exact readResponse_read hoperation inetPton hxml

end Readings

-- ==================================== runs

/-- What a run for the server information leaves. -/
structure RunReads (order : RunOrder) (run : SchemeRun) : Prop where
  told : run.result.error = .None → ∃ exchange ∈ run.exchanges, ∃ info,
    Tells exchange.outcome.body info ∧ run.result.serverInfo = some info
  learned : ∀ port, run.learned = some port →
    run.result.error = .None ∧ (order.scheme = .Https
      ∨ order.call.endpoint.pinnedTrustAvailable = false)
      ∧ run.result.serverInfo.bind (·.httpsPort) = some port

/-- The loop over the addresses: by the last attempt. -/
theorem attempts_read (inetPton : HostText → Option HostText) (world : RunWorld)
    (hoperation : order.operation = .ServerInfo)
    (hxml : order.shape.xmlResponse = true)
    (addresses : List MoonlightHostAddress) (index : Nat)
    (herror : result.error ≠ .None) :
    RunReads order
      (attempts inetPton order world addresses index result) := by
  induction addresses generalizing index result with
  | nil => exact ⟨fun h => absurd h herror, fun port h => by cases h⟩
  | cons address addresses ih =>
    by_cases hbefore : interruption (world.attempt index).before = .None
    swap
    · have hrun : attempts inetPton order world (address :: addresses) index
          result = { result := (attempt inetPton order
            (!addresses.isEmpty) index address (world.attempt index)
            result).result } := by
        simp [attempts, attempt, hbefore]
      rw [hrun]
      refine ⟨fun h => absurd h ?_, fun port h => by cases h⟩
      rw [attempt, if_pos hbefore]
      exact hbefore
    cases hrequest : requestFor order address
        (world.attempt index).uuid with
    | error error =>
      have hnamed : error ≠ .None := by
        rintro rfl
        exact requestFor_named hrequest
      have hrun : attempts inetPton order world (address :: addresses)
          index result = { result := (attempt inetPton order
            (!addresses.isEmpty) index address (world.attempt index)
            result).result } := by
        simp [attempts, attempt, hbefore, hrequest]
      rw [hrun]
      refine ⟨fun h => absurd h ?_, fun port h => by cases h⟩
      rw [attempt, if_neg (not_not.2 hbefore), hrequest]
      exact hnamed
    | ok request =>
      obtain ⟨diagnostic, hattempt⟩ := attempt_request inetPton
        (!addresses.isEmpty) index result hbefore hrequest
      have hread := readOutcome_read hoperation inetPton
        (!addresses.isEmpty) (world.attempt index)
        (outcomeOf (world.attempt index) request) diagnostic result hxml
      rw [attempts, hattempt]
      dsimp only
      split
      · rename_i hagain
        have hfailed : (readOutcome inetPton order (!addresses.isEmpty)
            (world.attempt index) (outcomeOf (world.attempt index) request)
            diagnostic result).result.error ≠ .None := by
          intro h
          rw [hread.last h] at hagain
          exact Bool.noConfusion hagain
        have hrest := ih (index + 1) hfailed
        refine ⟨fun h => ?_, hrest.learned⟩
        obtain ⟨e, he, htold⟩ := hrest.told h
        exact ⟨e, List.mem_cons_of_mem _ he, htold⟩
      · refine ⟨fun h => ?_, hread.learned⟩
        exact ⟨_, List.mem_singleton_self _, hread.told h⟩

-- =================================== trust

/-- A request that only the pinned host can answer, and only this client can
make. -/
structure Pinned (request : MoonlightTransportRequest) : Prop where
  scheme : request.scheme = .Https
  identity : request.requiresClientIdentity = true
  pin : request.requiresServerPin = true

/-- The server information of a result is from a pinned exchange. -/
def Authenticated (run : CallRun) : Prop :=
  ∃ exchange ∈ run.exchanges, Pinned exchange.request ∧ ∃ info,
    Tells exchange.outcome.body info ∧ run.result.serverInfo = some info

/-- A port is learned from a pinned exchange, or none is. -/
def LearnsSecurely (api : HostApiState) (call : MoonlightHostCall)
    (run : CallRun) : Prop :=
  run.api = api ∨ ∃ exchange ∈ run.exchanges, Pinned exchange.request
    ∧ ∃ info port evicted, Tells exchange.outcome.body info
      ∧ info.httpsPort = some port
      ∧ run.api = api.rememberHttpsPort evicted call.endpoint port

section Trust

variable (inetPton : HostText → Option HostText)

/-- The result of a ServerInfo run over a scheme, on a port. -/
def infoRun (call : MoonlightHostCall) (networkGeneration : Nat)
    (scheme : MoonlightHostScheme) (port : Nat) (world : RunWorld) :
    MoonlightHostResult :=
  (runOn inetPton call networkGeneration scheme .ServerInfo
    (makeQueryShape call) port world).result

/-- A result is the one of the secure run on the port that was tried, behind
the diagnostics of plaintext attempts. -/
def Determined (call : MoonlightHostCall) (networkGeneration : Nat)
    (world : CallWorld) (run : CallRun) : Prop :=
  ∃ port plaintext,
    (∀ exchange ∈ run.exchanges, exchange.request.scheme = .Https →
        exchange.request.port = port)
      ∧ (plaintext = [] ∨ plaintext = (infoRun inetPton call networkGeneration
          .Http call.endpoint.httpPort world.http).diagnostics)
      ∧ run.result =
        { infoRun inetPton call networkGeneration .Https port world.https with
          diagnostics := plaintext ++ (infoRun inetPton call networkGeneration
            .Https port world.https).diagnostics }

/-- A result without an error that is no candidate is authenticated, and
plaintext has no part in it but the port and the diagnostics. -/
def Trusted (call : MoonlightHostCall) (networkGeneration : Nat)
    (world : CallWorld) (run : CallRun) : Prop :=
  run.result.ok = true → run.result.candidateOnly = false →
    Authenticated run ∧ Determined inetPton call networkGeneration world run

end Trust

-- ================================== routes

section Routes

variable {inetPton : HostText → Option HostText} {call : MoonlightHostCall}
  {networkGeneration : Nat} (hoperation : call.operation = .ServerInfo)
  (hpinned : call.endpoint.pinnedTrustAvailable = true)

include hoperation in
theorem makeQueryShape_serverInfo :
    (makeQueryShape call).xmlResponse = true := by
  unfold makeQueryShape
  split
  · rfl
  · split
    · rfl
    · have hxml : (operationShape call).xmlResponse = true := by
        simp only [operationShape, hoperation, QueryShape.expectNoQuery]
        split <;> rfl
      dsimp only
      split <;> exact hxml

variable (inetPton networkGeneration) in
include hoperation in
theorem runOn_reads (scheme : MoonlightHostScheme) (port : Nat)
    (world : RunWorld) :
    RunReads (makeOrder call networkGeneration scheme call.operation
        (makeQueryShape call) port)
      (runOn inetPton call networkGeneration scheme call.operation
        (makeQueryShape call) port world) := by
  refine attempts_read inetPton world hoperation ?_ _ 0 nofun
  show (if call.operation = .ServerInfo then _ else _ : QueryShape).xmlResponse
    = true
  rw [if_pos hoperation]
  exact makeQueryShape_serverInfo hoperation

variable (inetPton networkGeneration) in
include hoperation hpinned in
/-- A plaintext run for a pinned host teaches nothing. -/
theorem runScheme_http (api : HostApiState) (candidate : Option Nat)
    (world : RunWorld) :
    let run := runScheme inetPton api call networkGeneration .Http
      call.operation (makeQueryShape call) candidate world
    run.api = api ∧ (run.result.ok = true → run.result.serverInfo.isSome)
      ∧ ∀ exchange ∈ run.exchanges, exchange.request.scheme = .Http := by
  have hreads := runOn_reads inetPton networkGeneration hoperation .Http
    (runPort api call .Http candidate) world
  refine ⟨?_, fun hok => ?_, fun e he => ?_⟩
  · unfold runScheme
    dsimp only
    split
    · rfl
    · rename_i port hport
      rcases (hreads.learned port hport).2.1 with hscheme | hplain
      · exact MoonlightHostScheme.noConfusion hscheme
      · exact Bool.noConfusion (hpinned.symm.trans hplain)
  · obtain ⟨e, -, info, -, hinfo⟩ := hreads.told (of_decide_eq_true hok)
    rw [runScheme, hinfo]
    rfl
  · exact (attempts_ofOrder inetPton _ _ _ e he).scheme

variable (inetPton networkGeneration) in
include hoperation in
/-- A secure run is authenticated, and all it learns it learns from that. -/
theorem runScheme_https (api : HostApiState) (candidate : Option Nat)
    (world : RunWorld) :
    let run := runScheme inetPton api call networkGeneration .Https
      call.operation (makeQueryShape call) candidate world
    (run.result.ok = true → Authenticated run) ∧ LearnsSecurely api call run
      ∧ ∀ exchange ∈ run.exchanges,
        exchange.request.port = runPort api call .Https candidate := by
  have hreads := runOn_reads inetPton networkGeneration hoperation .Https
    (runPort api call .Https candidate) world
  have hpins : ∀ exchange ∈ (runScheme inetPton api call networkGeneration
      .Https call.operation (makeQueryShape call) candidate
      world).exchanges, Pinned exchange.request := by
    intro e he
    have hof := attempts_ofOrder inetPton _ _ _ e he
    refine ⟨hof.scheme, hof.identity.trans ?_, hof.pin.trans ?_⟩ <;>
      simp [makeOrder, hoperation]
  refine ⟨fun hok => ?_, ?_, fun e he => ?_⟩
  · obtain ⟨e, he, hinfo⟩ := hreads.told (of_decide_eq_true hok)
    exact ⟨e, he, hpins e he, hinfo⟩
  · cases hlearned : (runOn inetPton call networkGeneration .Https
        call.operation (makeQueryShape call)
        (runPort api call .Https candidate) world).learned with
    | none =>
      left
      rw [runScheme]
      dsimp only
      rw [hlearned]
    | some port =>
      right
      obtain ⟨herror, -, hport⟩ := hreads.learned port hlearned
      obtain ⟨e, he, info, htells, hinfo⟩ := hreads.told herror
      rw [hinfo] at hport
      refine ⟨e, he, hpins e he, info, port, world.evicted, htells, hport, ?_⟩
      rw [runScheme]
      dsimp only
      rw [hlearned]
  · exact (attempts_ofOrder inetPton _ _ _ e he).port

/-- More exchanges leave an authenticated result authenticated. -/
theorem Authenticated.mono {run run' : CallRun} (h : Authenticated run)
    (hexchanges : ∀ exchange ∈ run.exchanges, exchange ∈ run'.exchanges)
    (hinfo : run'.result.serverInfo = run.result.serverInfo) :
    Authenticated run' := by
  obtain ⟨e, he, hpins, info, htells, hrun⟩ := h
  exact ⟨e, hexchanges e he, hpins, info, htells, hinfo.trans hrun⟩

theorem LearnsSecurely.mono {api : HostApiState} {run run' : CallRun}
    (h : LearnsSecurely api call run)
    (hexchanges : ∀ exchange ∈ run.exchanges, exchange ∈ run'.exchanges)
    (hapi : run'.api = run.api) : LearnsSecurely api call run' := by
  rcases h with h | ⟨e, he, hpins, info, port, evicted, htells, hport, h⟩
  · exact .inl (hapi.trans h)
  · exact .inr ⟨e, hexchanges e he, hpins, info, port, evicted, htells, hport,
      hapi.trans h⟩

variable (inetPton networkGeneration) in
include hoperation in
/-- A secure run is the secure run on its port. -/
theorem runScheme_determined (api : HostApiState) (world : CallWorld) :
    Trusted inetPton call networkGeneration world
      (runScheme inetPton api call networkGeneration .Https call.operation
        (makeQueryShape call) none world.https) := by
  intro hok _
  obtain ⟨hauthentic, -, hports⟩ := runScheme_https inetPton networkGeneration
    hoperation api none world.https
  refine ⟨hauthentic hok, _, [], fun e he _ => hports e he, .inl rfl, ?_⟩
  rw [runScheme, infoRun, hoperation]
  rfl

variable (inetPton networkGeneration) in
include hoperation hpinned in
/-- The routes that begin over HTTPS. -/
theorem secureRoute_trusted (api : HostApiState) (world : CallWorld) :
    let run := secureRoute inetPton api call networkGeneration
      (makeQueryShape call) world
    Trusted inetPton call networkGeneration world run
      ∧ LearnsSecurely api call run := by
  have hsecure := runScheme_determined inetPton networkGeneration hoperation api
    world
  obtain ⟨-, hlearns, -⟩ := runScheme_https inetPton networkGeneration hoperation
    api none world.https
  unfold secureRoute
  dsimp only
  generalize runScheme inetPton api call networkGeneration .Https
    call.operation (makeQueryShape call) none world.https = secure
    at hsecure hlearns ⊢
  obtain ⟨hsame, hinfo, -⟩ := runScheme_http inetPton networkGeneration
    hoperation hpinned secure.api none world.fallback
  generalize runScheme inetPton secure.api call networkGeneration .Http
    call.operation (makeQueryShape call) none world.fallback = candidate
    at hsame hinfo ⊢
  have hkept {run : CallRun} (hexchanges : run.exchanges
      = secure.exchanges ++ candidate.exchanges)
      (hapi : run.api = candidate.api) : LearnsSecurely api call run := by
    refine hlearns.mono (fun e he => ?_) (hapi.trans hsame)
    rw [hexchanges]
    exact List.mem_append_left _ he
  split
  · refine ⟨fun hok hcandidate => ?_, hkept rfl rfl⟩
    -- told plaintext is marked, and untold plaintext has an error
    have hok' : candidate.result.ok = true := hok
    unfold refusedRoute at hcandidate
    simp [hok', hinfo hok'] at hcandidate
  · split
    · exact ⟨hsecure, hlearns⟩
    · exact ⟨fun hok => Bool.noConfusion hok, hkept rfl rfl⟩

include hoperation hpinned in
/-- The route over a plaintext candidate that told a port. -/
theorem candidateRoute_trusted (api : HostApiState) (port : Nat)
    (world : CallWorld) :
    let candidate := runScheme inetPton api call networkGeneration .Http
      call.operation (makeQueryShape call) none world.http
    let run := candidateRoute call candidate
      (runScheme inetPton candidate.api call networkGeneration .Https
        call.operation (makeQueryShape call) (some port) world.https)
    Trusted inetPton call networkGeneration world run
      ∧ LearnsSecurely api call run := by
  obtain ⟨hsame, -, hplain⟩ := runScheme_http inetPton networkGeneration
    hoperation hpinned api none world.http
  dsimp only
  rw [hsame]
  obtain ⟨hauthentic, hlearns, hports⟩ := runScheme_https inetPton
    networkGeneration hoperation api (some port) world.https
  refine ⟨fun hok hcandidate => ?_, hlearns.mono
    (fun e he => List.mem_append_right _ he) rfl⟩
  have hresult : (candidateRoute call
      (runScheme inetPton api call networkGeneration .Http call.operation
        (makeQueryShape call) none world.http)
      (runScheme inetPton api call networkGeneration .Https call.operation
        (makeQueryShape call) (some port) world.https)).result
      = { (runScheme inetPton api call networkGeneration .Https
            call.operation (makeQueryShape call) (some port)
            world.https).result with
          diagnostics := (runScheme inetPton api call networkGeneration .Http
              call.operation (makeQueryShape call) none
              world.http).result.diagnostics
            ++ (runScheme inetPton api call networkGeneration .Https
              call.operation (makeQueryShape call) (some port)
              world.https).result.diagnostics } := by
    unfold candidateRoute at hcandidate ⊢
    dsimp only at hcandidate ⊢
    split
    · rename_i hrefused
      rw [if_pos hrefused] at hcandidate
      exact Bool.noConfusion hcandidate
    · rename_i hrefused
      rw [if_neg hrefused] at hcandidate
      split
      · rename_i hconflict
        rw [if_pos hconflict] at hcandidate
        exact Bool.noConfusion hcandidate
      · rfl
  rw [hresult] at hok
  refine ⟨(hauthentic hok).mono (fun e he => List.mem_append_right _ he) ?_,
    port, _, fun e he hscheme => ?_, .inr rfl, ?_⟩
  · rw [hresult]
  · rcases List.mem_append.1 he with he | he
    · rw [hplain e he] at hscheme
      exact MoonlightHostScheme.noConfusion hscheme
    · exact hports e he
  · rw [hresult, runScheme, infoRun, infoRun, hoperation]
    rfl

variable (inetPton networkGeneration) in
include hoperation hpinned in
theorem serverInfoRoutes_trusted (api : HostApiState) (world : CallWorld) :
    let run := serverInfoRoutes inetPton api call networkGeneration
      (makeQueryShape call) world
    Trusted inetPton call networkGeneration world run
      ∧ LearnsSecurely api call run := by
  unfold serverInfoRoutes
  rw [hpinned, if_neg (by decide)]
  dsimp only
  split
  · split
    · exact candidateRoute_trusted hoperation hpinned api _ world
    · obtain ⟨hsame, -, hplain⟩ := runScheme_http inetPton networkGeneration
        hoperation hpinned api none world.http
      rw [hsame]
      obtain ⟨htrusted, hlearns⟩ := secureRoute_trusted inetPton
        networkGeneration hoperation hpinned api world
      refine ⟨fun hok hcandidate => ?_, hlearns.mono
        (fun e he => List.mem_append_right _ he) rfl⟩
      obtain ⟨hauthentic, port, plaintext, hports, hplaintext, hresult⟩ :=
        htrusted hok hcandidate
      refine ⟨hauthentic.mono (fun e he => List.mem_append_right _ he) rfl,
        port, plaintext, fun e he hscheme => ?_, hplaintext, hresult⟩
      rcases List.mem_append.1 he with he | he
      · rw [hplain e he] at hscheme
        exact MoonlightHostScheme.noConfusion hscheme
      · exact hports e he hscheme
  · exact secureRoute_trusted inetPton networkGeneration hoperation hpinned
      api world

end Routes

-- ================================ sessions

/-- A call, and what it finds and meets. -/
structure HostStep where
  call : MoonlightHostCall
  admission : Admission := {}
  world : CallWorld

/-- A call that was served, with the state of the API before it. -/
structure Served where
  step : HostStep
  before : HostApiState
  run : CallRun

/-- A sequence of calls on one API. -/
def serve (inetPton : HostText → Option HostText) :
    HostApiState → List HostStep → List Served
  | _, [] => []
  | api, step :: steps =>
    let run := execute inetPton api step.call step.admission step.world
    { step, before := api, run } :: serve inetPton run.api steps

theorem serve_run (inetPton : HostText → Option HostText)
    (steps : List HostStep) (api : HostApiState) :
    ∀ served ∈ serve inetPton api steps,
      served.run = execute inetPton served.before served.step.call
        served.step.admission served.step.world := by
  induction steps generalizing api with
  | nil => exact fun served h => absurd h List.not_mem_nil
  | cons step steps ih =>
    intro served h
    rcases List.mem_cons.1 h with rfl | h
    · rfl
    · exact ih _ served h

/-- A ServerInfo call of a pinned host is served over the routes, or fails
and leaves the API as it was. -/
theorem execute_serverInfo (inetPton : HostText → Option HostText)
    (api : HostApiState) (step : HostStep)
    (hoperation : step.call.operation = .ServerInfo)
    (hpinned : step.call.endpoint.pinnedTrustAvailable = true) :
    let run := execute inetPton api step.call step.admission step.world
    (run.result.ok = true → run.result.candidateOnly = false →
        ∃ networkGeneration,
          admittedGeneration step.call step.admission = .ok networkGeneration
            ∧ Authenticated run
            ∧ Determined inetPton step.call networkGeneration step.world run)
      ∧ LearnsSecurely api step.call run := by
  unfold execute
  dsimp only
  generalize (if step.admission.released then .ShuttingDown
    else validateCall inetPton step.call (makeQueryShape step.call)) = refused
  by_cases hrefused : refused = .None
  swap
  · rw [if_pos hrefused]
    exact ⟨fun hok => absurd (of_decide_eq_true hok) hrefused, .inl rfl⟩
  rw [if_neg (not_not.2 hrefused)]
  cases hadmitted : admittedGeneration step.call step.admission with
  | error error =>
    have hnamed : Named (admittedGeneration step.call step.admission) := by
      unfold admittedGeneration
      repeat' split
      all_goals first
        | exact named_error nofun
        | exact named_ok _
    refine ⟨fun hok => ?_, .inl rfl⟩
    have hnone : error = .None := of_decide_eq_true hok
    rw [hadmitted, hnone] at hnamed
    exact absurd rfl hnamed
  | ok networkGeneration =>
    unfold executeRegistered
    dsimp only
    by_cases hinvalid :
        validateCall inetPton step.call (makeQueryShape step.call) = .None
    · rw [if_neg (not_not.2 hinvalid), if_pos hoperation]
      obtain ⟨htrusted, hlearns⟩ := serverInfoRoutes_trusted inetPton
        networkGeneration hoperation hpinned api step.world
      refine ⟨fun hok hcandidate => ?_, hlearns⟩
      exact ⟨networkGeneration, rfl, htrusted hok hcandidate⟩
    · rw [if_pos hinvalid]
      exact ⟨fun hok => absurd (of_decide_eq_true hok) hinvalid, .inl rfl⟩

/-- Over every sequence of calls: a result of ServerInfo for a pinned host
that has no error and is no candidate is authenticated and determined by its
secure run, and ports are learned from pinned exchanges only. -/
theorem plaintext_never_authenticated
    (inetPton : HostText → Option HostText) (api : HostApiState)
    (steps : List HostStep) (served : Served)
    (hserved : served ∈ serve inetPton api steps)
    (hoperation : served.step.call.operation = .ServerInfo)
    (hpinned : served.step.call.endpoint.pinnedTrustAvailable = true) :
    (served.run.result.ok = true → served.run.result.candidateOnly = false →
        ∃ networkGeneration,
          admittedGeneration served.step.call served.step.admission
              = .ok networkGeneration
            ∧ Authenticated served.run
            ∧ Determined inetPton served.step.call networkGeneration
              served.step.world served.run)
      ∧ LearnsSecurely served.before served.step.call served.run := by
  rw [serve_run inetPton steps api served hserved]
  exact execute_serverInfo inetPton served.before served.step hoperation
    hpinned

-- ================================== a host

def infoEndpoint : MoonlightHostEndpoint where
  serverName := codes "192.168.1.2"
  addresses := [{ value := codes "192.168.1.2", family := .Ipv4 }]
  httpPort := 48000
  pinnedTrustAvailable := true

def infoCall : MoonlightHostCall where
  key := ⟨1, 1, 1⟩
  operation := .ServerInfo
  endpoint := infoEndpoint

def infoBody : HostText :=
  codes "<root status_code=\"200\"><uniqueid>A</uniqueid>"
    ++ codes "<appversion>7.1.431.0</appversion><state>FREE</state>"
    ++ codes "<PairStatus>1</PairStatus><currentgame>0</currentgame></root>"

/-- A host that answers every request with a body. -/
def answering (body : HostText) : RunWorld where
  attempt _ :=
    { transport := fun _ => some
        { stage := .Complete
          sendState := .ConfirmedResponse
          httpStatus := 200
          body
          receivedBodyBytes := body.length
          resolvedAddress := codes "192.168.1.2"
          resolvedFamily := .Ipv4 } }

/-- A host that answers with a body over HTTP. -/
def plaintextWorld (body : HostText) : CallWorld where
  http := answering body
  https := answering infoBody
  fallback := answering body
  verification := answering infoBody

/-- A call of that host, in a sequence of its own. -/
def infoServed : Served where
  step := { call := infoCall, world := plaintextWorld infoBody }
  before := {}
  run := execute (fun _ => none) {} infoCall {} (plaintextWorld infoBody)

theorem plaintext_never_authenticated_info :
    (infoServed.run.result.ok = true →
        infoServed.run.result.candidateOnly = false →
        ∃ networkGeneration,
          admittedGeneration infoCall {} = .ok networkGeneration
            ∧ Authenticated infoServed.run
            ∧ Determined (fun _ => none) infoCall networkGeneration
              (plaintextWorld infoBody) infoServed.run)
      ∧ LearnsSecurely {} infoCall infoServed.run :=
  plaintext_never_authenticated (fun _ => none) {} [infoServed.step]
    infoServed (List.mem_singleton_self _) rfl rfl

/-- The ports that a call tried over HTTPS. -/
def portsTried (run : CallRun) : List Nat :=
  (run.exchanges.filter fun exchange =>
    exchange.request.scheme = .Https).map (·.request.port)

/-- A plaintext answer with one more blank tells the same port, and the
diagnostics of the result count the blank. -/
theorem plaintext_in_diagnostics :
    ¬ ∀ (inetPton : HostText → Option HostText) (api : HostApiState)
        (call : MoonlightHostCall) (admission : Admission)
        (world world' : CallWorld),
      let run := execute inetPton api call admission world
      let run' := execute inetPton api call admission world'
      call.operation = .ServerInfo →
        call.endpoint.pinnedTrustAvailable = true →
        world'.https = world.https → portsTried run' = portsTried run →
        run.result.ok = true → run.result.candidateOnly = false →
        run'.result.ok = true → run'.result.candidateOnly = false →
          run'.result = run.result := by
  intro h
  have hruns :
      let told := execute (fun _ => none) {} infoCall {}
        (plaintextWorld infoBody)
      let told' := execute (fun _ => none) {} infoCall {}
        (plaintextWorld (infoBody ++ codes " "))
      portsTried told' = portsTried told ∧ told.result.ok = true
        ∧ told.result.candidateOnly = false ∧ told'.result.ok = true
        ∧ told'.result.candidateOnly = false
        ∧ told'.result ≠ told.result := by
    decide +kernel
  obtain ⟨hports, hok, hauthentic, hok', hauthentic', hother⟩ := hruns
  have hhttps : (plaintextWorld (infoBody ++ codes " ")).https
      = (plaintextWorld infoBody).https :=
    show answering infoBody = answering infoBody from rfl
  exact hother (h (fun _ => none) {} infoCall {} (plaintextWorld infoBody)
    (plaintextWorld (infoBody ++ codes " ")) rfl rfl hhttps hports hok
    hauthentic hok' hauthentic')

end RemoteDesk.Moonlight.Core
