/-
What every run of the host API shares (moonlight/core/MoonlightHostApi.cpp):
the requests of a run are those of its order, and an attempt that has one is
what is made of its outcome.
-/
import RemoteDesk.Moonlight.Core.HostApi

namespace RemoteDesk.Moonlight.Core

open Lib

-- =============================== admission

/-- `execute` runs a call: it is valid and admitted. -/
structure Accepted (inetPton : HostText → Option HostText)
    (call : MoonlightHostCall) (admission : Admission)
    (networkGeneration : Nat) : Prop where
  present : admission.released = false
  valid : validateCall inetPton call (makeQueryShape call) = .None
  admitted : admittedGeneration call admission = .ok networkGeneration

-- ================================ requests

/-- Within the budget an outcome stays as it is. -/
theorem bounded_of_none {outcome : MoonlightTransportOutcome}
    (h : (bounded outcome).error = .None) : bounded outcome = outcome := by
  unfold bounded at h ⊢
  split
  · rename_i hlarge
    rw [if_pos hlarge] at h
    exact MoonlightTransportError.noConfusion h
  · rfl

variable {order : RunOrder}

/-- An attempt with a request is what is made of its outcome. -/
theorem attempt_request (inetPton : HostText → Option HostText) (more : Bool)
    (index : Nat) {address : MoonlightHostAddress} {world : AttemptWorld}
    (result : MoonlightHostResult) {request : MoonlightTransportRequest}
    (hbefore : interruption world.before = .None)
    (hrequest : requestFor order address world.uuid = .ok request) :
    ∃ diagnostic, attempt inetPton order more index address world result
      = { readOutcome inetPton order more world (outcomeOf world request)
            diagnostic result with
          exchange := some ⟨request, outcomeOf world request⟩ } := by
  rw [attempt, if_neg (not_not.2 hbefore), hrequest]
  exact ⟨_, rfl⟩

/-- Every request of a run is of its order. -/
structure OfOrder (order : RunOrder) (request : MoonlightTransportRequest) :
    Prop where
  operation : request.operation = order.operation
  scheme : request.scheme = order.scheme
  port : request.port = order.port
  identity : request.requiresClientIdentity
    = order.shape.requiresClientIdentity
  pin : request.requiresServerPin = order.shape.requiresServerPin

theorem requestFor_ofOrder {address : MoonlightHostAddress}
    {uuid : Option HostText} {request : MoonlightTransportRequest}
    (h : requestFor order address uuid = .ok request) :
    OfOrder order request := by
  unfold requestFor at h
  split at h
  · cases h
  · rename_i uuid
    cases hurl : buildUrl address order.scheme order.port order.shape uuid with
    | error error => rw [hurl] at h; cases h
    | ok url =>
      rw [hurl] at h
      cases h
      exact ⟨rfl, rfl, rfl, rfl, rfl⟩

theorem attempts_ofOrder (inetPton : HostText → Option HostText)
    {world : RunWorld} (addresses : List MoonlightHostAddress) (index : Nat)
    (result : MoonlightHostResult) :
    ∀ exchange ∈
        (attempts inetPton order world addresses index result).exchanges,
      OfOrder order exchange.request := by
  induction addresses generalizing index result with
  | nil => exact fun e he => absurd he List.not_mem_nil
  | cons address addresses ih =>
    have hone : ∀ exchange ∈ (attempt inetPton order (!addresses.isEmpty)
        index address (world.attempt index) result).exchange.toList,
        OfOrder order exchange.request := by
      unfold attempt
      dsimp only
      split
      · exact fun e he => absurd he List.not_mem_nil
      · split
        · exact fun e he => absurd he List.not_mem_nil
        · rename_i request hrequest
          intro e he
          rw [Option.toList_some, List.mem_singleton] at he
          rw [he]
          exact requestFor_ofOrder hrequest
    intro e he
    rw [attempts] at he
    dsimp only at he
    split at he
    · rcases List.mem_append.1 he with he | he
      · exact hone e he
      · exact ih _ _ e he
    · exact hone e he

end RemoteDesk.Moonlight.Core
