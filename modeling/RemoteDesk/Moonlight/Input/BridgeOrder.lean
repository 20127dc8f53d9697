/-
The order of what a Moonlight input bridge lets through.

`moves` says once what an operation can do to a bridge: it stays within its
session, starts one, cleans one up, or sends an event (`Admitted`). The
invariant of a run is `Ordered`: every event that was accepted is behind its
lane as long as its identity is current, and an identity that was left is
behind the high water mark, which no activation goes below.
-/
import RemoteDesk.Moonlight.Input.Bridge

namespace RemoteDesk.Moonlight.Input

open Lib

-- ============================== identities

/-- The order in which identities may follow each other. -/
def Newer (requested high : MoonlightInputIdentity) : Prop :=
  high.key.ownerToken < requested.key.ownerToken
    ∨ (requested.key.ownerToken = high.key.ownerToken
      ∧ requested.key.sessionId = high.key.sessionId
      ∧ requested.key.generation = high.key.generation
      ∧ high.inputGeneration < requested.inputGeneration)

theorem Newer.irrefl (identity : MoonlightInputIdentity) :
    ¬ Newer identity identity := by
  unfold Newer
  omega

theorem Newer.trans {a b c : MoonlightInputIdentity} (hab : Newer a b)
    (hbc : Newer b c) : Newer a c := by
  unfold Newer at hab hbc ⊢
  omega

/-- An identity that was current once. -/
def Behind (identity : MoonlightInputIdentity) (b : MoonlightInputBridge) :
    Prop :=
  b.highWaterIdentity.valid = true
    ∧ (b.highWaterIdentity = identity ∨ Newer b.highWaterIdentity identity)

namespace MoonlightInputBridge

variable {b b' : MoonlightInputBridge} {e f : MoonlightInputEvent}

theorem identityIsNewer_iff {requested : MoonlightInputIdentity} :
    b.identityIsNewer requested = true ↔
      b.highWaterIdentity.valid = false
        ∨ Newer requested b.highWaterIdentity := by
  unfold identityIsNewer Newer
  cases hvalid : b.highWaterIdentity.valid with
  | false => simp
  | true =>
    by_cases htoken : requested.key.ownerToken
        > b.highWaterIdentity.key.ownerToken
    · simp [htoken]
    · simp [htoken, and_assoc]

-- =================================== lanes

/-- Two events of one device and source. -/
def SameLane (e f : MoonlightInputEvent) : Prop :=
  e.deviceId = f.deviceId ∧ e.source = f.source

theorem ownsLane_congr (h : SameLane e f) : ownsLane e = ownsLane f := by
  funext lane
  rw [ownsLane, ownsLane, h.1, h.2]

theorem ownsLane_eventLane : ownsLane e (eventLane f) = true ↔
    SameLane f e := by
  rw [ownsLane, Bool.and_eq_true, decide_eq_true_eq, decide_eq_true_eq]
  rfl

theorem find_putLane (h : SameLane e f) (lanes : List SourceLane) :
    (putLane f lanes).find? (ownsLane e) = some (eventLane f) := by
  have hown : ownsLane e (eventLane f) = true :=
    ownsLane_eventLane.mpr ⟨h.1.symm, h.2.symm⟩
  induction lanes with
  | nil => exact List.find?_cons_of_pos hown
  | cons lane lanes ih =>
    rw [putLane]
    by_cases howns : ownsLane f lane = true
    · rw [if_pos howns]
      exact List.find?_cons_of_pos hown
    · rw [if_neg howns, List.find?_cons_of_neg]
      · exact ih
      · rw [ownsLane_congr h]
        exact howns

theorem find_putLane_apart (h : ¬ SameLane e f) (lanes : List SourceLane) :
    (putLane f lanes).find? (ownsLane e) = lanes.find? (ownsLane e) := by
  have hown : ¬ ownsLane e (eventLane f) = true := fun hown =>
    h (And.imp Eq.symm Eq.symm (ownsLane_eventLane.mp hown))
  induction lanes with
  | nil => exact List.find?_cons_of_neg hown
  | cons lane lanes ih =>
    rw [putLane]
    by_cases howns : ownsLane f lane = true
    · rw [if_pos howns, List.find?_cons_of_neg hown,
        List.find?_cons_of_neg]
      intro howns'
      simp only [ownsLane, Bool.and_eq_true, decide_eq_true_eq]
        at howns howns'
      exact h ⟨howns'.1.symm.trans howns.1, howns'.2.symm.trans howns.2⟩
    · rw [if_neg howns, List.find?_cons, List.find?_cons, ih]

/-- An event is not after what its lane remembers. -/
def UpTo (e : MoonlightInputEvent) (lane : SourceLane) : Prop :=
  (e.sourceGeneration < lane.sourceGeneration
      ∨ e.sourceGeneration = lane.sourceGeneration
        ∧ e.sourceSequence ≤ lane.lastSequence)
    ∧ e.monotonicTimestampUs ≤ lane.lastTimestampUs

/-- Of one identity and lane, an event comes before another. -/
def InOrder (e f : MoonlightInputEvent) : Prop :=
  e.identity = f.identity → SameLane e f →
    (e.sourceGeneration < f.sourceGeneration
      ∨ e.sourceGeneration = f.sourceGeneration
        ∧ e.sourceSequence < f.sourceSequence)
      ∧ e.monotonicTimestampUs ≤ f.monotonicTimestampUs

/-- A lane refuses whatever is not after the events up to it. -/
theorem inOrder_of_lane {lane : SourceLane} (h : b.laneRefusal f = none)
    (hlane : b.findLane f = some lane) (he : UpTo e lane) : InOrder e f := by
  intro _ _
  unfold laneRefusal at h
  unfold UpTo at he
  rw [hlane] at h
  dsimp only at h
  split at h
  · cases h
  split at h
  · split at h
    · cases h
    split at h
    · cases h
    · omega
  · split at h
    · cases h
    · omega

-- =================================== steps

/-- What lets an event through. -/
structure Admitted (b : MoonlightInputBridge) (e : MoonlightInputEvent) :
    Prop where
  valid : e.identity.valid = true
  identity : b.identity = e.identity
  admission : b.state = .active
        ∧ b.lastBoundaryTimestampUs < e.monotonicTimestampUs
      ∨ b.state = .releasePending ∧ e.lifecycleRelease = true
  lane : b.laneRefusal e = none

/-- A session is over, or was not begun. -/
def Resting (b : MoonlightInputBridge) : Prop :=
  b.state = .idle ∨ b.state = .stopped ∨ b.state = .cleaned

structure Within (b b' : MoonlightInputBridge) : Prop where
  identity : b'.identity = b.identity
  highWater : b'.highWaterIdentity = b.highWaterIdentity
  lanes : b'.sourceLanes = b.sourceLanes ∨ b'.state = .stopped
  boundary : b.lastBoundaryTimestampUs ≤ b'.lastBoundaryTimestampUs
  resting : b.Resting → b'.state = b.state
  begun : b'.state = .idle ∨ b'.state = .cleaned → b'.state = b.state

structure Activated (b b' : MoonlightInputBridge) : Prop where
  valid : b'.identity.valid = true
  newer : b.highWaterIdentity.valid = false
    ∨ Newer b'.identity b.highWaterIdentity
  highWater : b'.highWaterIdentity = b'.identity
  state : b'.state = .active

structure CleanedUp (b b' : MoonlightInputBridge) : Prop where
  identity : b'.identity = {}
  highWater : b'.highWaterIdentity = b.highWaterIdentity
  state : b'.state = .cleaned

/-- What an operation can do, and the event that it sends. -/
inductive Moves (b : MoonlightInputBridge) :
    MoonlightInputBridge → Option MoonlightInputEvent → Prop
  | within {next : MoonlightInputBridge} (h : Within b next) :
      Moves b next none
  | activated {next : MoonlightInputBridge} (h : Activated b next) :
      Moves b next none
  | cleanedUp {next : MoonlightInputBridge} (h : CleanedUp b next) :
      Moves b next none
  | sent {event : MoonlightInputEvent} {next : MoonlightInputBridge}
      (h : Admitted b event) (hnext : Within { b with
        sourceLanes := putLane event b.sourceLanes } next) :
      Moves b next (some event)

/-- Nothing of what orders events is changed. -/
theorem Within.same (hidentity : b'.identity = b.identity)
    (hhighWater : b'.highWaterIdentity = b.highWaterIdentity)
    (hlanes : b'.sourceLanes = b.sourceLanes) (hstate : b'.state = b.state)
    (hboundary : b.lastBoundaryTimestampUs ≤ b'.lastBoundaryTimestampUs) :
    Within b b' :=
  ⟨hidentity, hhighWater, .inl hlanes, hboundary, fun _ => hstate,
    fun _ => hstate⟩

theorem Within.refl (b : MoonlightInputBridge) : Within b b :=
  .same rfl rfl rfl rfl (le_refl _)

/-- The state of a session that is not over is changed. -/
theorem Within.live (hidentity : b'.identity = b.identity)
    (hhighWater : b'.highWaterIdentity = b.highWaterIdentity)
    (hlanes : b'.sourceLanes = b.sourceLanes ∨ b'.state = .stopped)
    (hboundary : b.lastBoundaryTimestampUs ≤ b'.lastBoundaryTimestampUs)
    (hlive : b.state = .active ∨ b.state = .suspended
      ∨ b.state = .releasePending)
    (hbegun : b'.state ≠ .idle ∧ b'.state ≠ .cleaned) : Within b b' := by
  refine ⟨hidentity, hhighWater, hlanes, hboundary, fun hresting => ?_,
    fun hidle => (hidle.elim hbegun.1 hbegun.2).elim⟩
  rcases hlive with hlive | hlive | hlive
  · rw [Resting, hlive] at hresting
    simp at hresting
  · rw [Resting, hlive] at hresting
    simp at hresting
  · rw [Resting, hlive] at hresting
    simp at hresting

theorem within_refused (b : MoonlightInputBridge)
    (status : MoonlightInputDispatchStatus) : Within b (b.refused status).1 :=
  .same rfl rfl rfl rfl (le_refl _)

theorem activate_moves (requested : MoonlightInputIdentity) (generation : Nat)
    (owner : Bool) : Moves b (b.activate requested generation owner).1 none := by
  unfold activate
  split
  · exact .within (.refl b)
  rename_i hvalid
  split
  · split
    · exact .within (.refl b)
    · exact .within (.same rfl rfl rfl rfl (le_refl _))
  split
  · exact .within (.refl b)
  split
  · exact .within (.refl b)
  rename_i hnewer
  split
  · exact .within (.refl b)
  · rw [Bool.not_eq_true', Bool.not_eq_false, identityIsNewer_iff] at hnewer
    rw [Bool.or_eq_true, not_or, Bool.not_eq_true', Bool.not_eq_false]
      at hvalid
    exact .activated ⟨hvalid.1, hnewer, rfl, rfl⟩

theorem resetRemoteState_moves (request : MoonlightInputRecoveryResetRequest)
    (port : Option MoonlightInputPortStatus) :
    Moves b (b.resetRemoteState request port).1 none := by
  refine .within ?_
  unfold resetRemoteState
  dsimp only
  split
  · exact .refl b
  split
  · exact .refl b
  split
  · exact .refl b
  split
  · exact .refl b
  split
  · exact .refl b
  split
  · exact .refl b
  · exact .same rfl rfl rfl rfl (le_refl _)
  · exact .same rfl rfl rfl rfl (le_refl _)
  · exact .same rfl rfl rfl rfl (le_refl _)

theorem laneRefusal_ne_accepted {status : MoonlightInputDispatchStatus}
    (h : b.laneRefusal e = some status) : status ≠ .accepted := by
  rintro rfl
  unfold laneRefusal at h
  split at h
  · split at h
    · cases h
    split at h
    · split at h
      · cases h
      split at h
      · cases h
      · cases h
    split at h
    · cases h
    · cases h
  · split at h
    · cases h
    · cases h

theorem dispatch_spec (b : MoonlightInputBridge) (event : MoonlightInputEvent)
    (port : Option MoonlightInputPortStatus) :
    (∃ status, status ≠ .accepted ∧ b.dispatch event port = b.refused status)
      ∨ Admitted b event ∧ b.dispatch event port
        = ({ b with
            sourceLanes := putLane event b.sourceLanes
            latestEventTimestampUs :=
              max b.latestEventTimestampUs event.monotonicTimestampUs
            counters := b.counters.count .accepted }, .accepted) := by
  unfold dispatch
  split
  · exact .inl ⟨_, by decide, rfl⟩
  rename_i henvelope
  split
  · exact .inl ⟨_, by decide, rfl⟩
  rename_i hidentity
  split
  · exact .inl ⟨_, by decide, rfl⟩
  rename_i hadmission
  split
  · exact .inl ⟨_, by decide, rfl⟩
  rename_i hboundary
  cases hlane : b.laneRefusal event with
  | some status =>
    exact .inl ⟨status, laneRefusal_ne_accepted hlane, rfl⟩
  | none =>
    rcases port with _ | status
    · exact .inl ⟨_, by decide, rfl⟩
    cases status with
    | accepted =>
      refine .inr ⟨⟨?_, not_not.mp hidentity, ?_, hlane⟩, rfl⟩
      · rw [Bool.or_eq_true, not_or, Bool.not_eq_true',
          Bool.not_eq_false] at henvelope
        simp only [validEnvelope, Bool.and_eq_true] at henvelope
        exact henvelope.1.1.1.1.1.1.1.1.1.1.1
      · simp only [Bool.and_eq_true, Bool.not_eq_true', activeAdmission,
          releaseAdmission, decide_eq_true_eq, decide_eq_false_iff_not,
          Bool.and_eq_false_iff, Bool.not_eq_false, not_and, not_le,
          not_or] at hadmission hboundary
        by_cases hactive : b.state = .active
        · exact .inl ⟨hactive, hboundary hactive⟩
        · have hrelease := hadmission hactive
          exact .inr ⟨not_not.mp hrelease.1.1, hrelease.1.2⟩
    | backpressure => exact .inl ⟨_, by decide, rfl⟩
    | unsupported => exact .inl ⟨_, by decide, rfl⟩
    | failed => exact .inl ⟨_, by decide, rfl⟩

theorem beginFlush_within (request : MoonlightInputFlushRequest) :
    Within b (b.beginFlush request).1 := by
  unfold beginFlush
  dsimp only
  split
  · exact .refl b
  split
  · exact .refl b
  split
  · exact .refl b
  split
  · exact .refl b
  rename_i hstate
  split
  · exact .refl b
  rename_i hfresh
  refine .live rfl rfl (.inl rfl) (by dsimp only [answer]; omega) ?_ ?_
  · tauto
  · exact ⟨by simp [answer], by simp [answer]⟩

/-- A neutral flush of a bridge that was prepared. -/
theorem flushNeutral_within {requested : MoonlightInputIdentity}
    {generation time : Nat} {reason : MoonlightInputSuspendReason}
    {state : MoonlightInputState} (port : Option Bool)
    (hlive : b.state = .active ∨ b.state = .suspended
      ∨ b.state = .releasePending)
    (hbegun : state ≠ .idle ∧ state ≠ .cleaned) :
    Within b ((b.prepared generation time reason).flushNeutral requested
      generation port state).1 := by
  have hboundary : b.lastBoundaryTimestampUs
      ≤ max b.lastBoundaryTimestampUs time := le_max_left _ _
  have hpending : MoonlightInputState.releasePending ≠ .idle
      ∧ MoonlightInputState.releasePending ≠ .cleaned := by decide
  unfold flushNeutral
  dsimp only
  split
  · exact .live rfl rfl (.inl rfl) hboundary hlive hpending
  · exact .live rfl rfl (.inl rfl) hboundary hlive hpending
  · exact .live rfl rfl (.inl rfl) hboundary hlive hbegun

theorem focusLost_within (requested : MoonlightInputIdentity)
    (generation time : Nat) (port : Option Bool) :
    Within b (b.focusLost requested generation time port).1 := by
  unfold focusLost
  dsimp only
  split
  · exact .refl b
  split
  · exact .refl b
  split
  · exact .refl b
  split
  · exact .same rfl rfl rfl rfl (le_max_left _ _)
  split
  · exact .refl b
  rename_i hstate
  split
  · exact .refl b
  · refine flushNeutral_within port ?_ (by decide)
    tauto

theorem resume_within (requested : MoonlightInputIdentity) (generation : Nat)
    (owner : Bool) : Within b (b.resume requested generation owner).1 := by
  unfold resume
  split
  · exact .refl b
  split
  · exact .refl b
  split
  · exact .same rfl rfl rfl rfl (le_refl _)
  split
  · exact .refl b
  rename_i hstate
  split
  · exact .refl b
  split
  · exact .refl b
  · refine .live rfl rfl (.inl rfl) (le_refl _) ?_ ?_
    · tauto
    · exact ⟨by simp [answer], by simp [answer]⟩

theorem stop_within (requested : MoonlightInputIdentity)
    (generation time : Nat) (port : Option Bool) :
    Within b (b.stop requested generation time port).1 := by
  unfold stop
  dsimp only
  split
  · exact .refl b
  split
  · exact .refl b
  split
  · exact .same rfl rfl rfl rfl (le_max_left _ _)
  split
  · exact .refl b
  rename_i hstate
  split
  · exact .refl b
  · refine flushNeutral_within port ?_ (by decide)
    tauto

theorem stopLocally_within (requested : MoonlightInputIdentity)
    (generation time : Nat) :
    Within b (b.stopLocally requested generation time).1 := by
  unfold stopLocally
  split
  · exact .refl b
  split
  · exact .refl b
  rename_i hfresh
  have hboundary : b.lastBoundaryTimestampUs ≤ time := by omega
  split
  · exact .same rfl rfl rfl rfl hboundary
  split
  · exact .refl b
  rename_i hstate
  refine .live rfl rfl (.inr rfl) hboundary ?_ ?_
  · tauto
  · exact ⟨by simp [answer], by simp [answer]⟩

theorem cleanup_moves (requested : MoonlightInputIdentity)
    (generation : Nat) : Moves b (b.cleanup requested generation).1 none := by
  unfold cleanup
  split
  · exact .within (.refl b)
  split
  · split
    · split
      · exact .within (.refl b)
      · exact .within (.same rfl rfl rfl rfl (le_refl _))
    · exact .within (.refl b)
  split
  · exact .within (.refl b)
  split
  · exact .within (.refl b)
  split
  · exact .within (.refl b)
  · exact .cleanedUp ⟨rfl, rfl, rfl⟩

/-- What any operation can do. -/
theorem moves (b : MoonlightInputBridge) (op : BridgeOp) :
    Moves b (b.step op) (b.sent op) := by
  cases op with
  | activate requested generation owner => exact activate_moves _ _ _
  | resetRemoteState request port => exact resetRemoteState_moves _ _
  | dispatch event port =>
    rw [step, sent]
    rcases dispatch_spec b event port with
      ⟨status, hstatus, hrefused⟩ | ⟨hadmitted, hsent⟩
    · have hnone : ¬ (b.refused status).2 = .accepted := hstatus
      rw [hrefused, if_neg hnone]
      exact .within (within_refused b status)
    · rw [hsent, if_pos rfl]
      exact .sent hadmitted (.same rfl rfl rfl rfl (le_refl _))
  | beginFlush request => exact .within (beginFlush_within _)
  | focusLost requested generation time port =>
    exact .within (focusLost_within _ _ _ _)
  | resume requested generation owner => exact .within (resume_within _ _ _)
  | stop requested generation time port =>
    exact .within (stop_within _ _ _ _)
  | stopLocally requested generation time =>
    exact .within (stopLocally_within _ _ _)
  | cleanup requested generation => exact cleanup_moves _ _

-- ==================================== runs

variable {sent : Option MoonlightInputEvent}

theorem behind_of_moves {identity : MoonlightInputIdentity}
    (h : Moves b b' sent)
    (hbehind : Behind identity b) : Behind identity b' := by
  unfold Behind at hbehind ⊢
  cases h with
  | within h =>
    rw [h.highWater]
    exact hbehind
  | activated h =>
    have hnewer := h.newer.resolve_left (by simp [hbehind.1])
    rw [h.highWater]
    refine ⟨h.valid, .inr ?_⟩
    rcases hbehind.2 with rfl | hold
    · exact hnewer
    · exact hnewer.trans hold
  | cleanedUp h =>
    rw [h.highWater]
    exact hbehind
  | sent _ hnext =>
    rw [hnext.highWater]
    exact hbehind

/-- An identity that is current after a step, and was behind before it, was
current before it. -/
theorem current_of_moves {identity : MoonlightInputIdentity}
    (h : Moves b b' sent) (hbehind : Behind identity b)
    (hvalid : identity.valid = true) (hcurrent : b'.identity = identity) :
    b.identity = identity
      ∧ b.lastBoundaryTimestampUs ≤ b'.lastBoundaryTimestampUs := by
  cases h with
  | within h => exact ⟨h.identity.symm.trans hcurrent, h.boundary⟩
  | activated h =>
    have hnewer := h.newer.resolve_left (by simp [hbehind.1])
    rw [hcurrent] at hnewer
    rcases hbehind.2 with hsame | hold
    · rw [hsame] at hnewer
      exact absurd hnewer (Newer.irrefl _)
    · exact absurd (hnewer.trans hold) (Newer.irrefl _)
  | cleanedUp h =>
    rw [← hcurrent, h.identity] at hvalid
    cases hvalid
  | sent _ hnext => exact ⟨hnext.identity.symm.trans hcurrent, hnext.boundary⟩

/-- The identity of a session that was begun is the high water mark. -/
structure Current (b : MoonlightInputBridge) : Prop where
  highWater : b.identity.valid = true → b.highWaterIdentity = b.identity
  begun : b.identity.valid = true → b.state ≠ .idle ∧ b.state ≠ .cleaned

theorem current_moves (h : Moves b b' sent)
    (hcurrent : Current b) : Current b' := by
  have hwithin : ∀ b₁ : MoonlightInputBridge, Within b₁ b' → Current b₁ →
      Current b' := by
    intro b₁ h hcurrent
    refine ⟨fun hvalid => ?_, fun hvalid => ?_⟩
    · rw [h.identity] at hvalid ⊢
      exact h.highWater.trans (hcurrent.highWater hvalid)
    · rw [h.identity] at hvalid
      obtain ⟨hidle, hcleaned⟩ := hcurrent.begun hvalid
      refine ⟨fun hstate => ?_, fun hstate => ?_⟩
      · exact hidle ((h.begun (.inl hstate)).symm.trans hstate)
      · exact hcleaned ((h.begun (.inr hstate)).symm.trans hstate)
  cases h with
  | within h => exact hwithin b h hcurrent
  | activated h =>
    refine ⟨fun _ => h.highWater, fun _ => ?_⟩
    rw [h.state]
    decide
  | cleanedUp h =>
    refine ⟨fun hvalid => ?_, fun hvalid => ?_⟩
    · rw [h.identity] at hvalid
      cases hvalid
    · rw [h.identity] at hvalid
      cases hvalid
  | sent _ hnext =>
    exact hwithin _ hnext ⟨hcurrent.highWater, hcurrent.begun⟩

theorem Current.behind (h : Current b) (hvalid : b.identity.valid = true) :
    Behind b.identity b := by
  have hhigh := h.highWater hvalid
  exact ⟨by rw [hhigh]; exact hvalid, .inl hhigh⟩

end MoonlightInputBridge

open MoonlightInputBridge

/-- What a run has let through. -/
structure Ordered (r : BridgeRun) : Prop where
  current : Current r.bridge
  behind : ∀ e ∈ r.accepted, e.identity.valid = true
    ∧ Behind e.identity r.bridge
  lanes : ¬ r.bridge.Resting → ∀ e ∈ r.accepted,
    e.identity = r.bridge.identity →
      ∃ lane, r.bridge.findLane e = some lane ∧ UpTo e lane
  inOrder : r.accepted.Pairwise InOrder

theorem ordered_create (limits : MoonlightInputLimits) :
    Ordered ⟨create limits, []⟩ where
  current := ⟨fun h => (by cases h), fun h => (by cases h)⟩
  behind := by simp
  lanes := by simp
  inOrder := .nil

/-- The lanes of a bridge that stays within its session. -/
theorem lanes_within {b b' : MoonlightInputBridge}
    {accepted : List MoonlightInputEvent} (h : Within b b')
    (hlanes : ¬ b.Resting → ∀ e ∈ accepted, e.identity = b.identity →
      ∃ lane, b.findLane e = some lane ∧ UpTo e lane)
    (hlive : ¬ b'.Resting) : ∀ e ∈ accepted, e.identity = b'.identity →
      ∃ lane, b'.findLane e = some lane ∧ UpTo e lane := by
  have hkept : b'.sourceLanes = b.sourceLanes :=
    h.lanes.resolve_right fun hstopped => hlive (.inr (.inl hstopped))
  have hlive' : ¬ b.Resting := by
    intro hresting
    refine hlive ?_
    unfold Resting at hresting ⊢
    rw [h.resting hresting]
    exact hresting
  intro e he hidentity
  rw [findLane, hkept]
  exact hlanes hlive' e he (hidentity.trans h.identity)

theorem ordered_step {r : BridgeRun} (h : Ordered r) (op : BridgeOp) :
    Ordered (r.step op) := by
  have hmoves := moves r.bridge op
  have hcurrent := current_moves hmoves h.current
  have hbehind : ∀ e ∈ r.accepted, e.identity.valid = true
      ∧ Behind e.identity (r.bridge.step op) := fun e he =>
    ⟨(h.behind e he).1, behind_of_moves hmoves (h.behind e he).2⟩
  obtain ⟨b, accepted⟩ := r
  unfold BridgeRun.step
  dsimp only at hmoves hcurrent hbehind ⊢
  generalize b.step op = b' at hmoves hcurrent hbehind ⊢
  generalize b.sent op = sent at hmoves ⊢
  cases hmoves with
  | within hwithin =>
    rw [Option.toList_none, List.append_nil]
    exact ⟨hcurrent, hbehind, lanes_within hwithin h.lanes, h.inOrder⟩
  | activated hnew =>
    rw [Option.toList_none, List.append_nil]
    refine ⟨hcurrent, hbehind, fun _ e he hidentity => ?_, h.inOrder⟩
    -- nothing of the new identity was accepted before
    obtain ⟨-, hvalid, hbefore⟩ := h.behind e he
    have hnewer := hnew.newer.resolve_left (by simp [hvalid])
    rw [← hidentity] at hnewer
    rcases hbefore with hsame | hold
    · rw [hsame] at hnewer
      exact absurd hnewer (Newer.irrefl _)
    · exact absurd (hnewer.trans hold) (Newer.irrefl _)
  | cleanedUp hclean =>
    rw [Option.toList_none, List.append_nil]
    refine ⟨hcurrent, hbehind, fun hlive => ?_, h.inOrder⟩
    exact absurd (.inr (.inr hclean.state)) hlive
  | @sent event _ hadmitted hnext =>
    have hlive : ¬ b.Resting := by
      unfold Resting
      rcases hadmitted.admission with ⟨hstate, -⟩ | ⟨hstate, -⟩
      · simp [hstate]
      · simp [hstate]
    have hafter : ∀ e ∈ accepted, InOrder e event := by
      intro e he hidentity hlane
      obtain ⟨lane, hfound, hupTo⟩ := h.lanes hlive e he
        (hidentity.trans hadmitted.identity.symm)
      have hfound' : b.findLane event = some lane := by
        rw [findLane, ← ownsLane_congr hlane]
        exact hfound
      exact inOrder_of_lane hadmitted.lane hfound' hupTo hidentity hlane
    rw [Option.toList_some]
    refine ⟨hcurrent, fun e he => ?_, ?_, ?_⟩
    · rcases List.mem_append.mp he with he | he
      · exact hbehind e he
      · rw [List.mem_singleton.mp he, ← hadmitted.identity]
        have hvalid : b.identity.valid = true :=
          hadmitted.identity ▸ hadmitted.valid
        refine ⟨hvalid, ?_⟩
        have hself := (hcurrent.behind (by rw [hnext.identity]; exact hvalid))
        rw [hnext.identity] at hself
        exact hself
    · refine lanes_within hnext fun _ e he hidentity => ?_
      rcases List.mem_append.mp he with he | he
      · by_cases hlane : SameLane e event
        · have horder := hafter e he (hidentity.trans hadmitted.identity)
            hlane
          refine ⟨eventLane event, find_putLane hlane _, ?_⟩
          unfold UpTo
          dsimp only [eventLane]
          omega
        · obtain ⟨lane, hfound, hupTo⟩ := h.lanes hlive e he hidentity
          exact ⟨lane, (find_putLane_apart hlane _).trans hfound, hupTo⟩
      · obtain rfl := List.mem_singleton.mp he
        exact ⟨eventLane e, find_putLane ⟨rfl, rfl⟩ _, .inr ⟨rfl, le_refl _⟩,
          le_refl _⟩
    · rw [List.pairwise_append]
      exact ⟨h.inOrder, List.pairwise_singleton _ _, fun e he f hf =>
        List.mem_singleton.mp hf ▸ hafter e he⟩

theorem ordered_exec (limits : MoonlightInputLimits) (ops : List BridgeOp) :
    Ordered (exec BridgeRun.step ⟨create limits, []⟩ ops) := by
  have hstep : ∀ r op, Ordered r → Ordered (BridgeRun.step r op) :=
    fun _ op h => ordered_step h op
  exact exec_invariant hstep ops (ordered_create limits)

/-- An identity that was current and is no more. -/
def Left (identity : MoonlightInputIdentity) (b : MoonlightInputBridge) :
    Prop :=
  Behind identity b ∧ b.identity ≠ identity

/-- A time that the boundary of an identity has reached. -/
def Passed (identity : MoonlightInputIdentity) (time : Nat)
    (b : MoonlightInputBridge) : Prop :=
  Behind identity b
    ∧ (b.identity = identity → time ≤ b.lastBoundaryTimestampUs)

section Later

variable {b : MoonlightInputBridge} {identity : MoonlightInputIdentity}

theorem behind_exec (h : Behind identity b) (later : List BridgeOp) :
    Behind identity (exec step b later) := by
  have hstep : ∀ b op, Behind identity b → Behind identity (step b op) :=
    fun b op h => behind_of_moves (moves b op) h
  exact exec_invariant hstep later h

theorem left_exec (hvalid : identity.valid = true) (h : Left identity b)
    (later : List BridgeOp) : Left identity (exec step b later) := by
  have hstep : ∀ b op, Left identity b → Left identity (step b op) :=
    fun b op h => ⟨behind_of_moves (moves b op) h.1, fun hcurrent =>
      h.2 (current_of_moves (moves b op) h.1 hvalid hcurrent).1⟩
  exact exec_invariant hstep later h

theorem passed_exec (hvalid : identity.valid = true) {time : Nat}
    (h : Passed identity time b) (later : List BridgeOp) :
    Passed identity time (exec step b later) := by
  have hstep : ∀ b op, Passed identity time b →
      Passed identity time (step b op) := by
    intro b op h
    refine ⟨behind_of_moves (moves b op) h.1, fun hcurrent => ?_⟩
    obtain ⟨hbefore, hle⟩ :=
      current_of_moves (moves b op) h.1 hvalid hcurrent
    exact (h.2 hbefore).trans hle
  exact exec_invariant hstep later h

/-- A focus loss that was applied, now or before. -/
theorem focusLost_applied {generation time : Nat} {port : Option Bool}
    (h : (b.focusLost identity generation time port).2.status
        = .applied
      ∨ (b.focusLost identity generation time port).2.status
        = .alreadyApplied) :
    identity.valid = true ∧ b.identity = identity
      ∧ time ≤ (b.focusLost identity generation
        time port).1.lastBoundaryTimestampUs := by
  unfold focusLost at h ⊢
  dsimp only at h ⊢
  split at h
  · simp [answer] at h
  rename_i hvalid
  split at h
  · simp [answer] at h
  rename_i hidentity
  have hvalid' : identity.valid = true := by
    simp only [Bool.or_eq_true, Bool.not_eq_true', not_or] at hvalid
    exact Bool.eq_true_of_not_eq_false hvalid.1.1
  refine ⟨hvalid', not_not.mp hidentity, ?_⟩
  rw [if_neg hvalid, if_neg hidentity]
  split at h
  · simp [answer] at h
  rename_i hfresh
  rw [if_neg hfresh]
  split
  · exact le_max_right _ _
  rename_i hsuspended
  rw [if_neg hsuspended] at h
  split at h
  · simp [answer] at h
  rename_i hstate
  rw [if_neg hstate]
  split at h
  · simp [answer] at h
  rename_i hgeneration
  rw [if_neg hgeneration]
  unfold flushNeutral
  dsimp only
  split
  · exact le_max_right _ _
  · exact le_max_right _ _
  · exact le_max_right _ _

theorem admitted_of_sent {op : BridgeOp} {e : MoonlightInputEvent}
    (h : b.sent op = some e) : Admitted b e := by
  have hmoves := moves b op
  rw [h] at hmoves
  cases hmoves with
  | sent hadmitted _ => exact hadmitted

end Later

/-- In any run: of one identity and lane the accepted events are in order;
an event is accepted only for the current identity, and only a lifecycle
release is while the bridge is not active; an identity that was left does not
come back; while the bridge is active no event of an identity is accepted that
is not after its focus losses; and a refused event changes counters only. -/
theorem bridge_keeps_order (limits : MoonlightInputLimits)
    (ops : List BridgeOp) :
    let r := exec BridgeRun.step ⟨create limits, []⟩ ops
    r.accepted.Pairwise InOrder
      ∧ (∀ op e, r.bridge.sent op = some e → e.identity = r.bridge.identity
        ∧ (r.bridge.state ≠ .active → e.lifecycleRelease = true))
      ∧ (∀ more later, r.bridge.identity.valid = true →
        (exec step r.bridge more).identity ≠ r.bridge.identity →
          (exec step (exec step r.bridge more) later).identity
            ≠ r.bridge.identity)
      ∧ (∀ identity generation time port,
        (r.bridge.focusLost identity generation time port).2.status
            = .applied
          ∨ (r.bridge.focusLost identity generation time port).2.status
            = .alreadyApplied →
        ∀ more op e,
          let b := exec step
            (r.bridge.focusLost identity generation time port).1 more
          b.state = .active → b.sent op = some e → e.identity = identity →
            time < e.monotonicTimestampUs)
      ∧ ∀ e port, (r.bridge.dispatch e port).2 ≠ .accepted →
        (r.bridge.dispatch e port).1 = { r.bridge with
          counters := (r.bridge.dispatch e port).1.counters } := by
  intro r
  have h : Ordered r := ordered_exec limits ops
  refine ⟨h.inOrder, ?_, ?_, ?_, ?_⟩
  · intro op e hsent
    have hadmitted := admitted_of_sent hsent
    refine ⟨hadmitted.identity.symm, fun hstate => ?_⟩
    rcases hadmitted.admission with ⟨hactive, -⟩ | ⟨-, hrelease⟩
    · exact absurd hactive hstate
    · exact hrelease
  · intro more later hvalid hleft
    have hbehind := behind_exec (h.current.behind hvalid) more
    exact (left_exec hvalid ⟨hbehind, hleft⟩ later).2
  · intro identity generation time port happlied more op e b hactive hsent hid
    obtain ⟨hvalid, hidentity, htime⟩ := focusLost_applied happlied
    have hbehind : Behind identity r.bridge := by
      rw [← hidentity]
      exact h.current.behind (hidentity.symm ▸ hvalid)
    have hafter := behind_of_moves (moves r.bridge
      (.focusLost identity generation time port)) hbehind
    have hadmitted := admitted_of_sent hsent
    have hpassed := passed_exec hvalid ⟨hafter, fun _ => htime⟩ more
    have hboundary := hpassed.2 (hadmitted.identity.trans hid)
    rcases hadmitted.admission with ⟨-, hlater⟩ | ⟨hpending, -⟩
    · exact hboundary.trans_lt hlater
    · rw [hactive] at hpending
      cases hpending
  · intro e port hrefused
    rcases dispatch_spec r.bridge e port with ⟨status, -, heq⟩ | ⟨-, heq⟩
    · rw [heq]
      rfl
    · rw [heq] at hrefused
      exact absurd rfl hrefused

-- =================== sessions and releases

def firstIdentity : MoonlightInputIdentity := ⟨⟨1, 1, 1⟩, 1⟩
def secondIdentity : MoonlightInputIdentity := ⟨⟨2, 1, 2⟩, 1⟩

/-- A key of one keyboard. -/
def keyEvent (identity : MoonlightInputIdentity) (time : Nat)
    (lifecycleRelease : Bool) : MoonlightInputEvent :=
  { identity
    deviceId := 1
    source := .physicalKeyboard
    sourceGeneration := 1
    sourceSequence := 1
    monotonicTimestampUs := time
    kind := .keyboard
    lifecycleRelease
    commandVersion := 1
    payloadSize := 1
    payload := List.replicate 64 0 }

/-- Two sessions, each with its first key. -/
def twoSessions : List BridgeOp :=
  [.activate firstIdentity 1 true,
    .dispatch (keyEvent firstIdentity 10 false) (some .accepted),
    .stop firstIdentity 2 20 (some true),
    .cleanup firstIdentity 3,
    .activate secondIdentity 4 true,
    .dispatch (keyEvent secondIdentity 5 false) (some .accepted)]

/-- A focus loss at 100, and a release of 50 in the flush after it. -/
def lateRelease : List BridgeOp :=
  [.activate firstIdentity 1 true,
    .focusLost firstIdentity 2 100 (some true),
    .resume firstIdentity 3 true,
    .beginFlush ⟨firstIdentity, .focusLost, 4, 200⟩,
    .dispatch (keyEvent firstIdentity 50 true) (some .accepted)]

/-- A lane starts over with a new identity, and a later flush lets a release
through that is older than the focus loss before it. -/
theorem lanes_start_over :
    (exec BridgeRun.step ⟨create {}, []⟩ twoSessions).accepted
        = [keyEvent firstIdentity 10 false, keyEvent secondIdentity 5 false]
      ∧ ((exec BridgeRun.step ⟨create {}, []⟩ (lateRelease.take 1)).bridge.focusLost
          firstIdentity 2 100 (some true)).2.status = .applied
      ∧ ((exec BridgeRun.step ⟨create {}, []⟩ (lateRelease.take 2)).bridge.resume
          firstIdentity 3 true).2.status = .applied
      ∧ (exec BridgeRun.step ⟨create {}, []⟩ lateRelease).accepted
        = [keyEvent firstIdentity 50 true] := by
  refine ⟨by decide, by decide, by decide, by decide⟩

end RemoteDesk.Moonlight.Input
