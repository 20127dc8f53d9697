/-
Mutations of a Moonlight host are sent once, and lost only behind a cancel or
the deadline (moonlight/core/MoonlightHostApi.cpp).

An attempt of which the request may have been sent ends the loop: every
return behind it either has an answer, or a rejection, or marks the outcome
as unknown. Two returns do not. Staleness is marked where it is noticed
behind the request, a cancel and the deadline are not, neither right after
the transport nor after the answer was read (`struck`).
-/
import RemoteDesk.Moonlight.Core.HostAttempts

namespace RemoteDesk.Moonlight.Core

open Lib

-- =============================== mutations

def MoonlightHostOperation.changesHost : MoonlightHostOperation → Bool
  | .Pair | .PairChallenge | .Unpair | .Launch | .Resume | .Cancel => true
  | .ServerInfo | .AppList | .AppAsset => false

/-- The exchanges of a call that are of its own operation. -/
def mutations (call : MoonlightHostCall) (run : CallRun) : List Exchange :=
  run.exchanges.filter fun exchange =>
    exchange.request.operation = call.operation

def SentAtMostOnce (exchanges : List Exchange) : Prop :=
  ∀ exchange ∈ exchanges.dropLast, mayBeSent exchange.outcome = false

def MaySend (exchanges : List Exchange) : Prop :=
  ∃ exchange ∈ exchanges, mayBeSent exchange.outcome = true

/-- A result with a parsed answer of the host. -/
def Answered (result : MoonlightHostResult) : Prop :=
  result.pairing.isSome ∨ ∃ action, result.action = some action
    ∧ action.outcomeUnknown = false

/-- A result with an HTTP or an XML status that is an error. -/
def Rejected (result : MoonlightHostResult) : Prop :=
  result.error = .HttpUnauthorized ∨ result.error = .HttpNotFound
    ∨ result.error = .HttpFailure ∨ result.error = .XmlStatusRejected
    ∨ result.error = .HostBusy

/-- A result that does not pass over a mutation in silence. -/
def Settled (result : MoonlightHostResult) : Prop :=
  Answered result ∨ Rejected result ∨ result.mutationOutcomeUnknown = true

/-- A mutation may be sent by the last of its attempts only, and then it is
not lost. -/
def NeverLost (call : MoonlightHostCall) (run : CallRun) : Prop :=
  SentAtMostOnce (mutations call run) ∧ (MaySend (mutations call run) →
    ¬ Answered run.result → ¬ Rejected run.result →
      run.result.mutationOutcomeUnknown = true)

/-- A result of which no attempt has said anything. -/
structure Fresh (result : MoonlightHostResult) : Prop where
  unmarked : result.mutationOutcomeUnknown = false
  action : result.action = none
  pairing : result.pairing = none

-- ================================= strikes

/-- A look that finds a cancel, or the deadline passed. -/
def strikes (check : Check) : Bool :=
  interruption check = .Cancelled || interruption check = .DeadlineExceeded

section Strikes

variable (inetPton : HostText → Option HostText)

/-- A response with an answer that is taken. -/
def accepts (operation : MoonlightHostOperation)
    (outcome : MoonlightTransportOutcome) : Bool :=
  (bounded outcome).error = .None
    && !(outcome.httpStatus < 200 || outcome.httpStatus ≥ 300)
    && (normalizedTransportWinner inetPton outcome).isSome
    && (parseAnswer operation outcome.body).toBool

/-- A cancel or the deadline strikes behind a request that was sent: right
after the transport, or once an answer was read. -/
def struckBehind (operation : MoonlightHostOperation) (world : AttemptWorld)
    (outcome : MoonlightTransportOutcome) : Bool :=
  strikes world.after
    || interruption world.after = .None && accepts inetPton operation outcome
      && strikes world.commit

/-- An attempt that was not sent goes on to the next address. -/
def goesOn (order : RunOrder) (more : Bool) (world : AttemptWorld)
    (outcome : MoonlightTransportOutcome) : Bool :=
  interruption world.after = .None && (bounded outcome).error ≠ .None
    && canRetry more order.shape (bounded outcome)

/-- A cancel or the deadline strikes behind the first attempt that may have
been sent. -/
def struck (order : RunOrder) (world : RunWorld) :
    List MoonlightHostAddress → Nat → Bool
  | [], _ => false
  | address :: addresses, index =>
    let here := world.attempt index
    interruption here.before = .None
      && match requestFor order address here.uuid with
        | .error _ => false
        | .ok request =>
          let outcome := outcomeOf here request
          if mayBeSent outcome then
            struckBehind inetPton order.operation here outcome
          else
            goesOn order (!addresses.isEmpty) here outcome
              && struck order world addresses (index + 1)

end Strikes

-- ================================ attempts

/-- Every look that stops a request is stale, a cancel or the deadline. -/
theorem interruption_cases (check : Check) :
    interruption check = .None ∨ interruption check = .StaleRequest
      ∨ strikes check = true := by
  rcases check with ⟨disposition, fenced, late⟩
  cases disposition <;> cases fenced <;> cases late <;> decide

variable {check : Check} {result : MoonlightHostResult}
variable {diagnostic : MoonlightHostDiagnostic} {call : MoonlightHostCall}

theorem strikes_of_stale
    (h : interruption check = .StaleRequest) : strikes check = false := by
  rw [strikes, h]
  rfl

@[simp] theorem mayBeSent_bounded (outcome : MoonlightTransportOutcome) :
    mayBeSent (bounded outcome) = mayBeSent outcome := by
  rw [bounded]
  split <;> rfl

/-- An attempt that may have been sent is not repeated. -/
theorem canRetry_sent {order : RunOrder} {more : Bool}
    {outcome : MoonlightTransportOutcome}
    (hmutation : order.shape.readOnly = false)
    (hsent : mayBeSent outcome = true) :
    canRetry more order.shape outcome = false := by
  simp [canRetry, hmutation, hsent]

theorem transportError_sent {shape : QueryShape}
    {outcome : MoonlightTransportOutcome} (hmutation : shape.readOnly = false)
    (hsent : mayBeSent outcome = true) :
    transportError shape outcome = .ActionUnknown := by
  simp [transportError, hmutation, hsent]

@[simp] theorem unknownAction_settled (result : MoonlightHostResult) :
    Settled result.unknownAction := .inr (.inr rfl)

/-- A result that ends with a cancel or the deadline, and with nothing
else. -/
theorem not_settled (hfresh : Fresh result)
    (herror : result.error = .Cancelled ∨ result.error = .DeadlineExceeded) :
    ¬ Settled result := by
  rintro ((hpairing | ⟨action, haction, -⟩) | hrejected | hmarked)
  · rw [hfresh.pairing] at hpairing
    exact Bool.noConfusion hpairing
  · rw [hfresh.action] at haction
    cases haction
  · rcases herror with herror | herror <;>
      simp [Rejected, herror] at hrejected
  · rw [hfresh.unmarked] at hmarked
    exact Bool.noConfusion hmarked

/-- What is left of a mutation that may have been sent: a settled result, or
one that was lost. -/
structure Ended (result : MoonlightHostResult) (lost : Bool) : Prop where
  settled : lost = false → Settled result
  silent : lost = true → ¬ Settled result ∧ result.ok = false

theorem Ended.of_settled (h : Settled result) : Ended result false :=
  ⟨fun _ => h, nofun⟩

/-- What follows from a code where a result was fresh. -/
theorem ended_struck (hfresh : Fresh result)
    (herror : result.error = .Cancelled ∨ result.error = .DeadlineExceeded) :
    Ended result true := by
  refine ⟨nofun, fun _ => ⟨not_settled hfresh herror, ?_⟩⟩
  rcases herror with herror | herror <;>
    simp [MoonlightHostResult.ok, herror]

theorem Fresh.close (hfresh : Fresh result)
    (diagnostic : MoonlightHostDiagnostic) (code : MoonlightHostError) :
    Fresh (result.close diagnostic code) :=
  ⟨hfresh.unmarked, hfresh.action, hfresh.pairing⟩

section Endings

variable {order : RunOrder} {outcome : MoonlightTransportOutcome}
    (hmutation : order.shape.readOnly = false)
    (hsent : mayBeSent outcome = true) (hfresh : Fresh result)

include hmutation hsent in
/-- Staleness behind a request is marked. -/
theorem closeInterrupted_stale (hstale : interruption check = .StaleRequest) :
    closeInterrupted order.shape outcome (interruption check) diagnostic result
      = result.unknownAction.close diagnostic .ActionUnknown := by
  rw [closeInterrupted, hstale, hmutation, hsent]
  rfl

/-- A cancel or the deadline is not. -/
theorem closeInterrupted_struck {shape : QueryShape}
    (hstruck : strikes check = true) :
    closeInterrupted shape outcome (interruption check) diagnostic result
      = result.close diagnostic (interruption check) := by
  have hstale : interruption check ≠ .StaleRequest := by
    intro h
    rw [strikes_of_stale h] at hstruck
    exact Bool.noConfusion hstruck
  simp [closeInterrupted, hstale]

theorem strikes_error (hstruck : strikes check = true) :
    interruption check = .Cancelled
      ∨ interruption check = .DeadlineExceeded := by
  simpa [strikes] using hstruck

include hmutation hsent hfresh in
/-- A look behind the request that stops it. -/
theorem closeInterrupted_ended (hstop : interruption check ≠ .None) :
    Ended (closeInterrupted order.shape outcome (interruption check)
      diagnostic result) (strikes check) := by
  rcases interruption_cases check with hnone | hstale | hstruck
  · exact absurd hnone hstop
  · rw [closeInterrupted_stale hmutation hsent hstale,
      strikes_of_stale hstale]
    exact .of_settled (.inr (.inr rfl))
  · rw [closeInterrupted_struck hstruck, hstruck]
    exact ended_struck (hfresh.close diagnostic _) (strikes_error hstruck)

end Endings

-- ================================= answers

/-- An action that was read is never of unknown outcome. -/
theorem parseAction_known {root : XmlNode}
    {operation : MoonlightHostOperation} {action : MoonlightActionResult}
    (h : parseAction root operation = .ok action) :
    action.outcomeUnknown = false := by
  unfold parseAction at h
  simp only [bind, Except.bind, pure, Except.pure] at h
  repeat' split at h
  all_goals first
    | cases h; rfl
    | cases h

/-- What a mutation reads from an answer is in the result. -/
theorem answered_take {operation : MoonlightHostOperation} {root : XmlNode}
    {answer : HostAnswer} (hchanges : operation.changesHost = true)
    (h : answerOf operation root = .ok answer)
    (result : MoonlightHostResult) : Answered (result.take answer) := by
  have hpairing (hread : (parsePairing root).map .Pairing = .ok answer) :
      Answered (result.take answer) := by
    cases hparsed : parsePairing root with
    | error error => rw [hparsed] at hread; cases hread
    | ok pairing =>
      rw [hparsed] at hread
      cases hread
      exact .inl rfl
  have haction (hread : (parseAction root operation).map .Action
      = .ok answer) : Answered (result.take answer) := by
    cases hparsed : parseAction root operation with
    | error error => rw [hparsed] at hread; cases hread
    | ok action =>
      rw [hparsed] at hread
      cases hread
      exact .inr ⟨action, rfl, parseAction_known hparsed⟩
  cases operation with
  | ServerInfo | AppList | AppAsset => exact Bool.noConfusion hchanges
  | Pair | PairChallenge => exact hpairing h
  | Unpair | Launch | Resume | Cancel => exact haction h

@[simp] theorem take_unmarked (result : MoonlightHostResult)
    (answer : HostAnswer) :
    (result.take answer).mutationOutcomeUnknown
      = result.mutationOutcomeUnknown := by
  cases answer <;> rfl

-- =============================== responses

section Responses

variable {order : RunOrder} {outcome : MoonlightTransportOutcome}
    (hmutation : order.shape.readOnly = false)
    (hsent : mayBeSent outcome = true) (hfresh : Fresh result)

include hmutation hsent hfresh in
/-- An answer ends settled, unless a cancel or the deadline strikes before it
is committed. -/
theorem commitAnswer_ended {winner : HostText} {commit : Check}
    {answer : HostAnswer} {diagnostic : MoonlightHostDiagnostic}
    (hanswered : Answered (result.take answer)) :
    Ended (commitAnswer order outcome winner commit answer diagnostic
      result).result (strikes commit) := by
  unfold commitAnswer
  dsimp only
  by_cases hnone : interruption commit = .None
  · have hquiet : strikes commit = false := by
      rw [strikes, hnone]
      rfl
    rw [if_neg (not_not.2 hnone), hquiet]
    exact .of_settled (.inl hanswered)
  rw [if_pos hnone]
  rcases interruption_cases commit with hnone' | hstale | hstruck
  · exact absurd hnone' hnone
  · rw [closeInterrupted_stale hmutation hsent hstale,
      strikes_of_stale hstale]
    exact .of_settled (.inr (.inr rfl))
  · rw [closeInterrupted_struck hstruck, hstruck]
    have herror := strikes_error hstruck
    refine ended_struck ⟨?_, ?_, rfl⟩ herror
    · show (result.take answer).mutationOutcomeUnknown = false
      rw [take_unmarked]
      exact hfresh.unmarked
    · show (if interruption commit = .ActionUnknown then _ else none) = none
      rcases herror with herror | herror <;> simp [herror]

include hmutation hsent hfresh in
theorem readXml_ended {winner : HostText} {commit : Check}
    {diagnostic : MoonlightHostDiagnostic}
    (hchanges : order.operation.changesHost = true) :
    Ended (readXml order outcome winner commit diagnostic result).result
      ((parseAnswer order.operation outcome.body).toBool
        && strikes commit) := by
  unfold readXml
  dsimp only
  cases hparsed : parseAnswer order.operation outcome.body with
  | ok answer =>
    obtain ⟨root, hroot, hanswer⟩ : ∃ root,
        (parseRoot outcome.body).2 = .ok root
          ∧ answerOf order.operation root = .ok answer := by
      cases hroot : (parseRoot outcome.body).2 with
      | error error =>
        rw [parseAnswer, hroot] at hparsed
        cases hparsed
      | ok root =>
        rw [parseAnswer, hroot] at hparsed
        exact ⟨root, rfl, hparsed⟩
    have hstart : Fresh
        { result with xmlStatus := (parseRoot outcome.body).1 } :=
      ⟨hfresh.unmarked, hfresh.action, hfresh.pairing⟩
    exact commitAnswer_ended hmutation hsent hstart
      (answered_take hchanges hanswer _)
  | error error =>
    refine .of_settled (.inr ?_)
    by_cases hrejected : error = .XmlStatusRejected ∨ error = .HostBusy
    · left
      rcases hrejected with rfl | rfl
      · exact .inr (.inr (.inr (.inl rfl)))
      · exact .inr (.inr (.inr (.inr rfl)))
    · right
      rw [not_or] at hrejected
      show (if _ then true else _) = true
      simp [hmutation, hrejected.1, hrejected.2]

/-- A response is the end of the loop. -/
theorem readResponse_again (inetPton : HostText → Option HostText)
    (order : RunOrder) (outcome : MoonlightTransportOutcome) (commit : Check)
    (diagnostic : MoonlightHostDiagnostic) (result : MoonlightHostResult) :
    (readResponse inetPton order outcome commit diagnostic result).again
      = false := by
  unfold readResponse readXml readAsset commitAnswer
  dsimp only
  repeat' split
  all_goals rfl

include hmutation hsent hfresh in
theorem readResponse_ended (inetPton : HostText → Option HostText)
    {commit : Check} (hchanges : order.operation.changesHost = true)
    (hxml : order.shape.xmlResponse = true)
    (hbounded : (bounded outcome).error = .None) :
    Ended (readResponse inetPton order outcome commit diagnostic
      result).result
      (accepts inetPton order.operation outcome && strikes commit) := by
  unfold readResponse accepts
  rw [hbounded]
  by_cases hstatus :
      (outcome.httpStatus < 200 || outcome.httpStatus ≥ 300) = true
  · rw [if_pos hstatus, hstatus]
    refine .of_settled (.inr (.inl ?_))
    show Rejected (result.close diagnostic (httpError outcome.httpStatus))
    unfold httpError
    split
    · exact .inl rfl
    · split
      · exact .inr (.inl rfl)
      · exact .inr (.inr (.inl rfl))
  rw [if_neg hstatus, Bool.not_eq_true _ |>.mp hstatus]
  cases hwinner : normalizedTransportWinner inetPton outcome with
  | none =>
    refine .of_settled (.inr (.inr ?_))
    show (!order.shape.readOnly) = true
    rw [hmutation]
    rfl
  | some winner =>
    dsimp only
    rw [if_pos hxml]
    exact readXml_ended hmutation hsent hfresh hchanges

include hmutation hsent hfresh in
/-- An attempt that may have been sent is the last one, and ends settled
unless a cancel or the deadline strikes behind it. -/
theorem readOutcome_ended (inetPton : HostText → Option HostText)
    (more : Bool) (world : AttemptWorld)
    (diagnostic : MoonlightHostDiagnostic)
    (hchanges : order.operation.changesHost = true)
    (hxml : order.shape.xmlResponse = true) :
    (readOutcome inetPton order more world outcome diagnostic result).again
        = false
      ∧ Ended (readOutcome inetPton order more world outcome diagnostic
          result).result
        (struckBehind inetPton order.operation world outcome) := by
  have hstart : Fresh { result with httpStatus := outcome.httpStatus } :=
    ⟨hfresh.unmarked, hfresh.action, hfresh.pairing⟩
  unfold readOutcome struckBehind
  dsimp only
  by_cases hafter : interruption world.after = .None
  · have hbehind : (strikes world.after
        || interruption world.after = .None
          && accepts inetPton order.operation outcome && strikes world.commit)
        = (accepts inetPton order.operation outcome
          && strikes world.commit) := by
      simp [strikes, hafter]
    rw [if_neg (not_not.2 hafter), hbehind]
    by_cases herror : (bounded outcome).error = .None
    · rw [if_neg (not_not.2 herror), bounded_of_none herror]
      exact ⟨readResponse_again .., readResponse_ended hmutation hsent hstart
        inetPton hchanges hxml herror⟩
    · have hsent' : mayBeSent (bounded outcome) = true := by
        rw [mayBeSent_bounded, hsent]
      have hrefused : accepts inetPton order.operation outcome = false := by
        simp [accepts, herror]
      rw [if_pos herror, canRetry_sent hmutation hsent',
        transportError_sent hmutation hsent', hrefused]
      exact ⟨rfl, .of_settled (unknownAction_settled _)⟩
  · have hbehind : (strikes world.after
        || interruption world.after = .None
          && accepts inetPton order.operation outcome && strikes world.commit)
        = strikes world.after := by
      simp [hafter]
    rw [if_pos hafter, hbehind]
    exact ⟨rfl, closeInterrupted_ended hmutation hsent hstart hafter⟩

end Responses

/-- An attempt that goes on leaves the result fresh. -/
theorem readOutcome_goesOn (inetPton : HostText → Option HostText)
    (order : RunOrder) (more : Bool) (world : AttemptWorld)
    (outcome : MoonlightTransportOutcome)
    (diagnostic : MoonlightHostDiagnostic) {result : MoonlightHostResult}
    (hfresh : Fresh result) :
    let tried :=
      readOutcome inetPton order more world outcome diagnostic result
    tried.again = goesOn order more world outcome
      ∧ (tried.again = true → Fresh tried.result) := by
  unfold readOutcome goesOn
  dsimp only
  by_cases hafter : interruption world.after = .None
  swap
  · rw [if_pos hafter]
    exact ⟨by simp [hafter], nofun⟩
  rw [if_neg (not_not.2 hafter)]
  by_cases herror : (bounded outcome).error = .None
  · rw [if_neg (not_not.2 herror), readResponse_again]
    exact ⟨by simp [herror], nofun⟩
  rw [if_pos herror]
  cases hretry : canRetry more order.shape (bounded outcome) with
  | true =>
    refine ⟨by simp [hafter, herror], fun _ => ?_⟩
    exact ⟨hfresh.unmarked, hfresh.action, hfresh.pairing⟩
  | false =>
    rw [if_neg Bool.false_ne_true]
    split <;> exact ⟨by simp, nofun⟩

-- ==================================== runs

theorem sentAtMostOnce_cons {exchange : Exchange} {exchanges : List Exchange}
    (hsent : mayBeSent exchange.outcome = false)
    (h : SentAtMostOnce exchanges) :
    SentAtMostOnce (exchange :: exchanges) := by
  cases exchanges with
  | nil => exact fun e he => absurd he List.not_mem_nil
  | cons next rest =>
    intro e he
    rw [List.dropLast_cons_cons, List.mem_cons] at he
    rcases he with rfl | he
    · exact hsent
    · exact h e he

/-- What a run leaves of a mutation: it is sent at most once, by the last
attempt, and then it ends settled unless it was struck. -/
theorem attempts_ended (inetPton : HostText → Option HostText)
    {order : RunOrder} (world : RunWorld)
    (hmutation : order.shape.readOnly = false)
    (hchanges : order.operation.changesHost = true)
    (hxml : order.shape.xmlResponse = true)
    (addresses : List MoonlightHostAddress) (index : Nat)
    (hfresh : Fresh result) :
    let run := attempts inetPton order world addresses index result
    let lost := struck inetPton order world addresses index
    SentAtMostOnce run.exchanges
      ∧ (MaySend run.exchanges → Ended run.result lost)
      ∧ (lost = true → MaySend run.exchanges) := by
  induction addresses generalizing index result with
  | nil =>
    refine ⟨fun e he => absurd he List.not_mem_nil, ?_,
        fun h => Bool.noConfusion h⟩
    rintro ⟨e, he, -⟩
    exact absurd he List.not_mem_nil
  | cons address addresses ih =>
    have hnothing {run : SchemeRun} (h : run.exchanges = []) :
        SentAtMostOnce run.exchanges ∧ ¬ MaySend run.exchanges := by
      rw [h]
      refine ⟨fun e he => absurd he List.not_mem_nil, ?_⟩
      rintro ⟨e, he, -⟩
      exact absurd he List.not_mem_nil
    dsimp only
    by_cases hbefore : interruption (world.attempt index).before = .None
    swap
    · have hrun : (attempts inetPton order world (address :: addresses)
          index result).exchanges = [] := by
        simp [attempts, attempt, hbefore]
      obtain ⟨honce, hnever⟩ := hnothing hrun
      refine ⟨honce, fun h => absurd h hnever, fun h => ?_⟩
      simp [struck, hbefore] at h
    cases hrequest : requestFor order address
        (world.attempt index).uuid with
    | error error =>
      have hrun : (attempts inetPton order world (address :: addresses)
          index result).exchanges = [] := by
        simp [attempts, attempt, hbefore, hrequest]
      obtain ⟨honce, hnever⟩ := hnothing hrun
      refine ⟨honce, fun h => absurd h hnever, fun h => ?_⟩
      simp [struck, hrequest] at h
    | ok request =>
      obtain ⟨diagnostic, hattempt⟩ := attempt_request inetPton
        (!addresses.isEmpty) index result hbefore hrequest
      have hlost : struck inetPton order world (address :: addresses)
          index = if mayBeSent (outcomeOf (world.attempt index) request)
            then struckBehind inetPton order.operation
              (world.attempt index)
              (outcomeOf (world.attempt index) request)
            else goesOn order (!addresses.isEmpty) (world.attempt index)
                (outcomeOf (world.attempt index) request)
              && struck inetPton order world addresses (index + 1) := by
        simp [struck, hbefore, hrequest]
      rw [hlost, attempts, hattempt]
      dsimp only
      generalize outcomeOf (world.attempt index) request = outcome
      cases hsent : mayBeSent outcome with
      | true =>
        obtain ⟨hlast, hended⟩ := readOutcome_ended hmutation hsent
          hfresh inetPton (!addresses.isEmpty) (world.attempt index)
          diagnostic hchanges hxml
        rw [hlast, if_neg Bool.false_ne_true, if_pos rfl]
        refine ⟨fun e he => absurd he List.not_mem_nil,
          fun _ => hended, fun _ => ?_⟩
        exact ⟨⟨request, outcome⟩, List.mem_singleton_self _, hsent⟩
      | false =>
        obtain ⟨hagain, hgone⟩ := readOutcome_goesOn inetPton order
          (!addresses.isEmpty) (world.attempt index) outcome diagnostic
          hfresh
        rw [if_neg Bool.false_ne_true, ← hagain]
        split
        · rename_i hgoes
          obtain ⟨honce, hended, hmay⟩ := ih (index + 1) (hgone hgoes)
          rw [hgoes, Bool.true_and]
          refine ⟨sentAtMostOnce_cons hsent honce, ?_, ?_⟩
          · rintro ⟨e, he, hmaybe⟩
            rcases List.mem_cons.1 he with rfl | he
            · rw [hsent] at hmaybe
              exact Bool.noConfusion hmaybe
            · exact hended ⟨e, he, hmaybe⟩
          · intro hlost
            obtain ⟨e, he, hmaybe⟩ := hmay hlost
            exact ⟨e, List.mem_cons_of_mem _ he, hmaybe⟩
        · rename_i hstays
          rw [Bool.not_eq_true _ |>.mp hstays, Bool.false_and]
          refine ⟨fun e he => absurd he List.not_mem_nil, ?_,
            fun h => Bool.noConfusion h⟩
          rintro ⟨e, he, hmaybe⟩
          rw [List.mem_singleton.1 he, hsent] at hmaybe
          exact Bool.noConfusion hmaybe

-- =================================== calls

/-- A mutation is never read-only, and answered in XML. -/
theorem operationShape_mutation (hchanges : call.operation.changesHost = true) :
    (operationShape call).readOnly = false
      ∧ (operationShape call).xmlResponse = true := by
  unfold operationShape
  cases hoperation : call.operation with
  | ServerInfo | AppList | AppAsset =>
    rw [hoperation] at hchanges
    exact Bool.noConfusion hchanges
  | Pair =>
    dsimp only [pairShape]
    repeat' split
    all_goals exact ⟨rfl, rfl⟩
  | PairChallenge | Unpair | Launch | Resume | Cancel =>
    dsimp only [launchShape, QueryShape.expectNoQuery]
    split <;> exact ⟨rfl, rfl⟩

theorem makeQueryShape_mutation (hchanges : call.operation.changesHost = true) :
    (makeQueryShape call).readOnly = false
      ∧ (makeQueryShape call).xmlResponse = true := by
  unfold makeQueryShape
  split
  · exact ⟨rfl, rfl⟩
  · split
    · exact ⟨rfl, rfl⟩
    · dsimp only
      split <;> exact operationShape_mutation hchanges

/-- An accepted mutation goes the way of the primary run. -/
theorem execute_mutation {inetPton : HostText → Option HostText}
    {api : HostApiState} {admission : Admission} {networkGeneration : Nat}
    {world : CallWorld}
    (haccepted : Accepted inetPton call admission networkGeneration)
    (hchanges : call.operation.changesHost = true) :
    execute inetPton api call admission world
      = primaryRoute inetPton api call networkGeneration (makeQueryShape call)
          world := by
  have hoperation : call.operation ≠ .ServerInfo := by
    intro h
    rw [h] at hchanges
    exact Bool.noConfusion hchanges
  simp [execute, executeRegistered, haccepted.present, haccepted.valid,
    haccepted.admitted, hoperation]

/-- The order of the primary run of a call. -/
def primaryOrder (api : HostApiState) (call : MoonlightHostCall)
    (networkGeneration : Nat) : RunOrder :=
  let shape := makeQueryShape call
  makeOrder call networkGeneration shape.scheme call.operation shape
    (runPort api call shape.scheme none)

/-- A cancel or the deadline strikes behind the request of a mutation. -/
def mutationStruck (inetPton : HostText → Option HostText)
    (api : HostApiState) (call : MoonlightHostCall) (networkGeneration : Nat)
    (world : CallWorld) : Bool :=
  struck inetPton (primaryOrder api call networkGeneration)
    (world.primary (makeQueryShape call).scheme) call.endpoint.addresses 0

/-- The verification of a cancel keeps a result settled. -/
theorem verifiedResult_settled {primary verification : MoonlightHostResult}
    {action : MoonlightActionResult} (hok : primary.ok = true)
    (haction : primary.action = some action) (h : Settled primary) :
    Settled (verifiedResult primary verification action) := by
  have hnone : primary.error = .None := by
    simpa [MoonlightHostResult.ok] using hok
  unfold verifiedResult
  dsimp only
  split
  · split
    · rcases h with (hpairing | ⟨known, hknown, houtcome⟩) | hrejected | hmark
      · exact .inl (.inl hpairing)
      · rw [haction] at hknown
        cases hknown
        exact .inl (.inr ⟨_, rfl, houtcome⟩)
      · simp [Rejected, hnone] at hrejected
      · exact .inr (.inr hmark)
    · exact h
  · exact .inr (.inr rfl)

theorem neverLost_of_settled {run : CallRun}
    (honce : SentAtMostOnce (mutations call run))
    (h : MaySend (mutations call run) → Settled run.result) :
    NeverLost call run := by
  refine ⟨honce, fun hmay hanswered hrejected => ?_⟩
  rcases h hmay with hsettled | hsettled | hsettled
  · exact absurd hsettled hanswered
  · exact absurd hsettled hrejected
  · exact hsettled

/-- Requests of the verification are no mutations. -/
theorem mutations_append {run : CallRun} {primary verification : List Exchange}
    (hrun : run.exchanges = primary ++ verification)
    (hprimary : ∀ exchange ∈ primary,
      exchange.request.operation = call.operation)
    (hverification : ∀ exchange ∈ verification,
      exchange.request.operation ≠ call.operation) :
    mutations call run = primary := by
  have hkept : primary.filter
      (fun exchange => exchange.request.operation = call.operation)
      = primary := by
    rw [List.filter_eq_self]
    simpa using hprimary
  have hdropped : verification.filter
      (fun exchange => exchange.request.operation = call.operation)
      = [] := by
    rw [List.filter_eq_nil_iff]
    simpa using hverification
  rw [mutations, hrun, List.filter_append, hkept, hdropped, List.append_nil]

/-- The mutations of a call are what its primary run exchanged, and its
result is settled where that of the primary run is. -/
theorem primaryRoute_mutations (inetPton : HostText → Option HostText)
    (api : HostApiState) (call : MoonlightHostCall) (networkGeneration : Nat)
    (world : CallWorld) :
    let primary := runScheme inetPton api call networkGeneration
      (makeQueryShape call).scheme call.operation (makeQueryShape call) none
      (world.primary (makeQueryShape call).scheme)
    let run := primaryRoute inetPton api call networkGeneration
      (makeQueryShape call) world
    mutations call run = primary.exchanges
      ∧ (Settled primary.result → Settled run.result)
      ∧ (primary.result.ok = false → run.result = primary.result) := by
  have hown : ∀ exchange ∈ (runScheme inetPton api call networkGeneration
      (makeQueryShape call).scheme call.operation (makeQueryShape call) none
      (world.primary (makeQueryShape call).scheme)).exchanges,
      exchange.request.operation = call.operation := by
    intro e he
    exact (attempts_ofOrder inetPton _ _ _ e he).operation
  unfold primaryRoute
  dsimp only
  generalize runScheme inetPton api call networkGeneration
      (makeQueryShape call).scheme call.operation (makeQueryShape call) none
      (world.primary (makeQueryShape call).scheme) = primary at hown ⊢
  have hsame : mutations call primary = primary.exchanges :=
    mutations_append (List.append_nil _).symm hown
      fun e he => absurd he List.not_mem_nil
  cases haction : primary.result.action with
  | none => exact ⟨hsame, id, fun _ => rfl⟩
  | some action =>
    dsimp only
    split
    · exact ⟨hsame, id, fun _ => rfl⟩
    · rename_i hverified
      simp only [Bool.or_eq_true, decide_eq_true_eq, Bool.not_eq_true',
        not_or, not_not, Bool.not_eq_false] at hverified
      obtain ⟨⟨hcancel, hok⟩, -⟩ := hverified
      refine ⟨mutations_append rfl hown fun e he => ?_, ?_, ?_⟩
      · rw [(attempts_ofOrder inetPton _ _ _ e he).operation, hcancel]
        exact nofun
      · exact verifiedResult_settled hok haction
      · intro hfailed
        rw [hok] at hfailed
        exact Bool.noConfusion hfailed

/-- A mutation that a call may have sent is sent by its last attempt, and
never lost, exactly where no cancel and no deadline strikes behind it. -/
theorem mutation_never_lost (inetPton : HostText → Option HostText)
    (api : HostApiState) (call : MoonlightHostCall) (admission : Admission)
    (networkGeneration : Nat) (world : CallWorld)
    (haccepted : Accepted inetPton call admission networkGeneration)
    (hchanges : call.operation.changesHost = true) :
    NeverLost call (execute inetPton api call admission world)
      ↔ mutationStruck inetPton api call networkGeneration world = false := by
  obtain ⟨hmutation, hxml⟩ := makeQueryShape_mutation hchanges
  have hoperation : call.operation ≠ .ServerInfo := by
    intro h
    rw [h] at hchanges
    exact Bool.noConfusion hchanges
  have hshape : (primaryOrder api call networkGeneration).shape
      = { makeQueryShape call with scheme := (makeQueryShape call).scheme } :=
    if_neg hoperation
  have hstart : Fresh
      { key := call.key
        networkGeneration
        error := .TransportFailure } := ⟨rfl, rfl, rfl⟩
  have hmutation' :
      (primaryOrder api call networkGeneration).shape.readOnly = false := by
    rw [hshape]
    exact hmutation
  have hxml' :
      (primaryOrder api call networkGeneration).shape.xmlResponse = true := by
    rw [hshape]
    exact hxml
  obtain ⟨honce, hended, hmay⟩ := attempts_ended inetPton
    (world.primary (makeQueryShape call).scheme) hmutation' hchanges hxml'
    call.endpoint.addresses 0 hstart
  obtain ⟨hmutations, hsettled, hsame⟩ := primaryRoute_mutations inetPton api
    call networkGeneration world
  rw [execute_mutation haccepted hchanges]
  cases hstruck : mutationStruck inetPton api call networkGeneration world with
  | false =>
    refine iff_of_true (neverLost_of_settled ?_ fun hmaySend => ?_) rfl
    · rw [hmutations]
      exact honce
    · rw [hmutations] at hmaySend
      exact hsettled ((hended hmaySend).settled hstruck)
  | true =>
    refine iff_of_false ?_ fun h => Bool.noConfusion h
    intro hnever
    have hsent := hmay hstruck
    obtain ⟨hlost, hfailed⟩ := (hended hsent).silent hstruck
    apply hlost
    by_contra hunsettled
    rw [Settled, not_or, not_or] at hunsettled
    have hmarked := hnever.2 (by rw [hmutations]; exact hsent)
    rw [hsame hfailed] at hmarked
    exact hunsettled.2.2 (hmarked hunsettled.1 hunsettled.2.1)

-- ================================== a quit

def quitEndpoint : MoonlightHostEndpoint where
  serverName := codes "192.168.1.2"
  addresses := [{ value := codes "192.168.1.2", family := .Ipv4 }]
  pinnedTrustAvailable := true

def quitCall : MoonlightHostCall where
  key := ⟨1, 1, 1⟩
  operation := .Cancel
  endpoint := quitEndpoint

/-- The host takes every request, and answers it. -/
def quitTransport (body : HostText) (_ : MoonlightTransportRequest) :
    Option MoonlightTransportOutcome :=
  some
    { stage := .Complete
      sendState := .ConfirmedResponse
      httpStatus := 200
      body
      receivedBodyBytes := body.length
      resolvedAddress := codes "192.168.1.2"
      resolvedFamily := .Ipv4 }

/-- A quit that the host accepts, with what is found behind the transport. -/
def quitWorld (after : Check) : CallWorld :=
  let run : RunWorld :=
    { attempt := fun _ =>
        { transport := quitTransport
            (codes "<root status_code=\"200\"><cancel>1</cancel></root>")
          after } }
  { http := run, https := run, fallback := run, verification := run }

theorem quitCall_accepted : Accepted (fun _ => none) quitCall {} 1 :=
  ⟨rfl, by decide +kernel, by decide +kernel⟩

/-- A quit that goes through is not lost. -/
theorem mutation_never_lost_quit :
    NeverLost quitCall
        (execute (fun _ => none) {} quitCall {} (quitWorld {}))
      ↔ mutationStruck (fun _ => none) {} quitCall 1 (quitWorld {}) = false :=
  mutation_never_lost (fun _ => none) {} quitCall {} 1 (quitWorld {})
    quitCall_accepted rfl

/-- A cancel comes in while the host answers a quit. -/
def cancelledQuit : CallRun :=
  execute (fun _ => none) {} quitCall {}
    (quitWorld { disposition := .Cancelled })

/-- The host has quit, and the result tells nothing. -/
theorem quit_lost_by_cancel :
    ¬ ∀ (inetPton : HostText → Option HostText) (api : HostApiState)
        (call : MoonlightHostCall) (admission : Admission)
        (networkGeneration : Nat) (world : CallWorld),
      Accepted inetPton call admission networkGeneration →
        call.operation.changesHost = true →
          NeverLost call (execute inetPton api call admission world) := by
  intro h
  have hnever : NeverLost quitCall cancelledQuit :=
    h (fun _ => none) {} quitCall {} 1
      (quitWorld { disposition := .Cancelled }) quitCall_accepted rfl
  have hsent : (mutations quitCall cancelledQuit).any
      (fun exchange => mayBeSent exchange.outcome) = true := by
    decide +kernel
  have herror : cancelledQuit.result.error = .Cancelled := by decide +kernel
  have hfresh : Fresh cancelledQuit.result :=
    ⟨by decide +kernel, by decide +kernel, by decide +kernel⟩
  have hlost := not_settled hfresh (.inl herror)
  rw [Settled, not_or, not_or] at hlost
  exact hlost.2.2 (hnever.2 (List.any_eq_true.1 hsent) hlost.1 hlost.2.1)

end RemoteDesk.Moonlight.Core
