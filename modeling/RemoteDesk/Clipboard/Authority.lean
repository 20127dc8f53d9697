/-
Which session owns the clipboard (extensions/session_clipboard_authority.h).

One authority a process. Its mutex is recursive, so a commit may call back
into it; no other thread comes in between. A run is a list of calls, where
`enter` is `withAuthority` up to its commit, `leave` what it does behind it,
and the calls in between are the ones of the commit. What is asked about a
session may be answered differently each time, or thrown at (`none`). Tokens
and generations are `Nat`, as is the depth of commits, which a stack keeps
below 32 bits.
-/
import RemoteDesk.Lib.Runs

namespace RemoteDesk.Clipboard

open Lib

def kMaxSafeInteger : Nat := 9007199254740991

structure ClipboardOwner where
  sessionId : Int
  generation : Nat
  token : Nat
deriving DecidableEq, Repr

structure SessionClipboardAuthority where
  commitDepth : Nat := 0
  epoch : Nat := 0
  sessionId : Int := 0
  generation : Nat := 0
  token : Nat := 0
deriving DecidableEq, Repr

/-- What a validator says; `none` where it throws. -/
abbrev Liveness : Type := Option Bool

namespace SessionClipboardAuthority

variable (a : SessionClipboardAuthority)

def validIdentity (sessionId : Int) (generation : Nat) : Bool :=
  sessionId > 0 && generation > 0 && generation ≤ kMaxSafeInteger

def alive (isAlive : Liveness) : Bool := isAlive.getD false

def clearOwner : SessionClipboardAuthority :=
  { a with sessionId := 0, generation := 0, token := 0 }

def discardDeadOwner (isAlive : Liveness) : SessionClipboardAuthority :=
  if a.token ≠ 0 ∧ alive isAlive = false then a.clearOwner else a

/-- `matches`, the triple of the owner. -/
def isOwner (owner : ClipboardOwner) : Bool :=
  validIdentity owner.sessionId owner.generation && owner.token > 0
    && owner.token ≤ kMaxSafeInteger && a.token = owner.token
    && a.sessionId = owner.sessionId && a.generation = owner.generation

/-- The token of a claim, 0 where it is refused. The validator is asked about
the owner first, then about the claimant. -/
def claim (sessionId : Int) (generation : Nat) (replaceExisting : Bool)
    (ownerAlive claimantAlive : Liveness) :
    SessionClipboardAuthority × Nat :=
  if a.commitDepth ≠ 0 then (a, 0)
  else
    let a := a.discardDeadOwner ownerAlive
    if !validIdentity sessionId generation || !alive claimantAlive
        || (a.token ≠ 0 && !replaceExisting) || a.epoch ≥ kMaxSafeInteger then
      (a, 0)
    else
      ({ a with sessionId, generation, epoch := a.epoch + 1
                token := a.epoch + 1 }, a.epoch + 1)

def owns (owner : ClipboardOwner) (isAlive : Liveness) :
    SessionClipboardAuthority × Bool :=
  let a := a.discardDeadOwner isAlive
  (a, a.isOwner owner)

def revoke (owner : ClipboardOwner) (isAlive : Liveness) :
    SessionClipboardAuthority × Bool :=
  if a.commitDepth ≠ 0 then (a, false)
  else
    let a := a.discardDeadOwner isAlive
    if !a.isOwner owner then (a, false) else (a.clearOwner, true)

/-- `withAuthority` up to its commit; `false` where it returns before. -/
def enter (owner : ClipboardOwner) (isAlive : Liveness) :
    SessionClipboardAuthority × Bool :=
  let a := a.discardDeadOwner isAlive
  if !a.isOwner owner then (a, false)
  else ({ a with commitDepth := a.commitDepth + 1 }, true)

/-- `withAuthority` behind its commit, which throws where it answers
`none`. -/
def leave (owner : ClipboardOwner) (commit : Option Bool)
    (isAlive : Liveness) : SessionClipboardAuthority × Bool :=
  let accepted := commit.getD false
  let a := { a with commitDepth := a.commitDepth - 1 }.discardDeadOwner isAlive
  (a, accepted && a.isOwner owner)

end SessionClipboardAuthority

inductive AuthorityCall where
  | claim (sessionId : Int) (generation : Nat) (replaceExisting : Bool)
      (ownerAlive claimantAlive : Liveness)
  | owns (owner : ClipboardOwner) (isAlive : Liveness)
  | revoke (owner : ClipboardOwner) (isAlive : Liveness)
  | enter (owner : ClipboardOwner) (isAlive : Liveness)
  | leave (commit : Option Bool) (isAlive : Liveness)
deriving DecidableEq, Repr

/-- The authority, the triples of the commits that run, the inner one first,
and the tokens that claims returned. -/
structure AuthorityRun where
  authority : SessionClipboardAuthority := {}
  running : List ClipboardOwner := []
  tokens : List Nat := []
deriving DecidableEq, Repr

namespace AuthorityRun

variable (run : AuthorityRun)

/-- A call, and what `leave` returns. Where no commit runs there is nothing
to leave. -/
def step : AuthorityCall → AuthorityRun
  | .claim sessionId generation replaceExisting ownerAlive claimantAlive =>
    let claimed := run.authority.claim sessionId generation replaceExisting
      ownerAlive claimantAlive
    { run with
      authority := claimed.1
      tokens := if claimed.2 = 0 then run.tokens
        else run.tokens ++ [claimed.2] }
  | .owns owner isAlive =>
    { run with authority := (run.authority.owns owner isAlive).1 }
  | .revoke owner isAlive =>
    { run with authority := (run.authority.revoke owner isAlive).1 }
  | .enter owner isAlive =>
    { run with
      authority := (run.authority.enter owner isAlive).1
      running := if (run.authority.enter owner isAlive).2 then
        owner :: run.running else run.running }
  | .leave commit isAlive =>
    match run.running with
    | [] => run
    | owner :: running =>
      { run with
        authority := (run.authority.leave owner commit isAlive).1
        running }

/-- What `withAuthority` returns where its commit ends. -/
def returned (commit : Option Bool) (isAlive : Liveness) : Bool :=
  match run.running with
  | [] => false
  | owner :: _ => (run.authority.leave owner commit isAlive).2

def start (initialEpoch : Nat) : AuthorityRun :=
  { authority := { epoch := initialEpoch } }

end AuthorityRun

/-- The run that calls lead to. -/
def authorityRun (initialEpoch : Nat) (calls : List AuthorityCall) :
    AuthorityRun :=
  exec AuthorityRun.step (.start initialEpoch) calls

-- =============================== ownership

namespace SessionClipboardAuthority

variable {a : SessionClipboardAuthority} {owner owner' : ClipboardOwner}
  {isAlive : Liveness}

theorem isOwner_iff : a.isOwner owner = true ↔
    validIdentity owner.sessionId owner.generation = true ∧ owner.token > 0
      ∧ owner.token ≤ kMaxSafeInteger ∧ a.token = owner.token
      ∧ a.sessionId = owner.sessionId ∧ a.generation = owner.generation := by
  simp only [isOwner, Bool.and_eq_true, decide_eq_true_eq, and_assoc]

theorem isOwner_unique (h : a.isOwner owner = true)
    (h' : a.isOwner owner' = true) : owner = owner' := by
  obtain ⟨-, -, -, htoken, hsession, hgeneration⟩ := isOwner_iff.mp h
  obtain ⟨-, -, -, htoken', hsession', hgeneration'⟩ := isOwner_iff.mp h'
  cases owner
  cases owner'
  simp_all

/-- Asking about the owner leaves it, or leaves none. -/
theorem discardDeadOwner_cases (a : SessionClipboardAuthority)
    (isAlive : Liveness) :
    (a.discardDeadOwner isAlive = a ∧ (a.token ≠ 0 → isAlive = some true))
      ∨ (a.discardDeadOwner isAlive = a.clearOwner ∧ a.token ≠ 0) := by
  rw [discardDeadOwner]
  split
  · next hdead => exact Or.inr ⟨rfl, hdead.1⟩
  · next hnot =>
      refine Or.inl ⟨rfl, fun htoken => ?_⟩
      rw [not_and, Bool.not_eq_false] at hnot
      have halive := hnot htoken
      rcases isAlive with _ | _ | _
      · cases halive
      · cases halive
      · rfl

end SessionClipboardAuthority

-- =============================== invariant

/-- What calls keep: commits are counted, no token is above the epoch, and
while a commit runs its triple is the owner, or there is none. -/
structure AuthorityRun.Kept (run : AuthorityRun) : Prop where
  depth : run.authority.commitDepth = run.running.length
  increasing : run.tokens.Pairwise (· < ·)
  issued : ∀ token ∈ run.tokens, token ≤ run.authority.epoch
  current : run.authority.token ≤ run.authority.epoch
  owned : ∀ owner ∈ run.running, run.authority.token ≠ 0 →
    run.authority.isOwner owner = true

namespace AuthorityRun.Kept

variable {run : AuthorityRun}

/-- Asking about the owner. -/
theorem discard (h : run.Kept) (isAlive : Liveness) :
    AuthorityRun.Kept
      { run with authority := run.authority.discardDeadOwner isAlive } := by
  rcases SessionClipboardAuthority.discardDeadOwner_cases run.authority
    isAlive with ⟨heq, -⟩ | ⟨heq, -⟩
  · rw [heq]
    exact h
  · rw [heq]
    exact ⟨h.depth, h.increasing, h.issued, Nat.zero_le _,
      fun _ _ hno => absurd rfl hno⟩

theorem step (h : run.Kept) (call : AuthorityCall) : (run.step call).Kept := by
  cases call with
  | claim sessionId generation replaceExisting ownerAlive claimantAlive =>
    have hdiscard := h.discard ownerAlive
    rw [AuthorityRun.step, SessionClipboardAuthority.claim]
    split
    · exact h
    · next hdepth =>
        rw [not_not] at hdepth
        dsimp only
        split
        · exact hdiscard
        · have hnone : run.running = [] :=
            List.eq_nil_of_length_eq_zero (h.depth.symm.trans hdepth)
          refine ⟨?_, ?_, ?_, le_rfl, fun owner howner => ?_⟩
          · exact hdiscard.depth
          · rw [if_neg (Nat.succ_ne_zero _), List.pairwise_append]
            refine ⟨h.increasing, List.pairwise_singleton _ _,
              fun token htoken next hnext => ?_⟩
            rw [List.mem_singleton.mp hnext]
            exact Nat.lt_succ_of_le (hdiscard.issued token htoken)
          · intro token htoken
            rw [if_neg (Nat.succ_ne_zero _)] at htoken
            rcases List.mem_append.mp htoken with htoken | htoken
            · exact Nat.le_succ_of_le (hdiscard.issued token htoken)
            · rw [List.mem_singleton.mp htoken]
          · rw [show run.running = [] from hnone] at howner
            exact absurd howner List.not_mem_nil
  | owns owner isAlive => exact h.discard isAlive
  | revoke owner isAlive =>
    have hdiscard := h.discard isAlive
    rw [AuthorityRun.step, SessionClipboardAuthority.revoke]
    split
    · exact h
    · dsimp only
      split
      · exact hdiscard
      · exact ⟨hdiscard.depth, h.increasing, hdiscard.issued,
          Nat.zero_le _, fun _ _ hno => absurd rfl hno⟩
  | enter owner isAlive =>
    have hdiscard := h.discard isAlive
    rw [AuthorityRun.step, SessionClipboardAuthority.enter]
    split
    · exact hdiscard
    · next howner =>
        rw [Bool.not_eq_true', Bool.not_eq_false] at howner
        refine ⟨?_, h.increasing, hdiscard.issued, hdiscard.current,
          fun other hother htoken => ?_⟩
        · exact congrArg (· + 1) hdiscard.depth
        · rcases List.mem_cons.mp hother with rfl | hother
          · exact howner
          · exact hdiscard.owned other hother htoken
  | leave commit isAlive =>
    rw [AuthorityRun.step]
    split
    · exact h
    · next owner running hrunning =>
        have hpopped : AuthorityRun.Kept
            { run with
              authority := { run.authority with
                commitDepth := run.authority.commitDepth - 1 }
              running } := by
          refine ⟨?_, h.increasing, h.issued, h.current,
            fun other hother htoken => ?_⟩
          · show run.authority.commitDepth - 1 = running.length
            rw [h.depth, hrunning, List.length_cons, Nat.add_sub_cancel]
          · refine h.owned other ?_ htoken
            rw [hrunning]
            exact List.mem_cons_of_mem _ hother
        exact hpopped.discard isAlive

/-- The owner of a commit that runs stays the owner, or there is none. -/
theorem running_step (h : run.Kept) (call : AuthorityCall)
    {owner : ClipboardOwner} (howner : owner ∈ run.running) :
    (run.step call).authority.token = 0
      ∨ (run.step call).authority.isOwner owner = true := by
  by_cases hstays : owner ∈ (run.step call).running
  · by_cases htoken : (run.step call).authority.token = 0
    · exact Or.inl htoken
    · exact Or.inr ((h.step call).owned owner hstays htoken)
  · cases call with
    | claim => exact absurd howner hstays
    | owns => exact absurd howner hstays
    | revoke => exact absurd howner hstays
    | enter other isAlive =>
      refine absurd ?_ hstays
      rw [AuthorityRun.step]
      dsimp only
      split
      · exact List.mem_cons_of_mem _ howner
      · exact howner
    | leave commit isAlive =>
      rw [AuthorityRun.step]
      split
      · next hnone => simp [hnone] at howner
      · have hdiscard := h.discard isAlive
        by_cases htoken :
            (run.authority.discardDeadOwner isAlive).token = 0
        · left
          rw [SessionClipboardAuthority.leave,
            SessionClipboardAuthority.discardDeadOwner]
          rw [SessionClipboardAuthority.discardDeadOwner] at htoken
          split at htoken
          · next hdead =>
              rw [if_pos hdead]
              rfl
          · next hdead =>
              rw [if_neg hdead]
              exact htoken
        · right
          refine Eq.trans ?_ (hdiscard.owned owner howner htoken)
          rw [SessionClipboardAuthority.leave,
            SessionClipboardAuthority.discardDeadOwner,
            SessionClipboardAuthority.discardDeadOwner]
          dsimp only
          split <;> rfl

end AuthorityRun.Kept

theorem kept_authorityRun (initialEpoch : Nat) (calls : List AuthorityCall) :
    (authorityRun initialEpoch calls).Kept := by
  have hstart : (AuthorityRun.start initialEpoch).Kept := by
    refine ⟨rfl, List.Pairwise.nil, ?_, Nat.zero_le _, ?_⟩
    · exact fun token htoken => absurd htoken List.not_mem_nil
    · exact fun owner howner => absurd howner List.not_mem_nil
  exact exec_invariant (fun run call h => h.step call) calls hstart

-- =================================== calls

namespace AuthorityRun

variable {run : AuthorityRun}

/-- Nothing of an owner that is alive is claimed without replacing it. -/
theorem claim_refused {sessionId : Int} {generation : Nat}
    {claimantAlive : Liveness} (howner : run.authority.token ≠ 0) :
    run.step (.claim sessionId generation false (some true) claimantAlive)
      = run := by
  have hkeep : run.authority.discardDeadOwner (some true) = run.authority :=
    if_neg fun h => Bool.noConfusion h.2
  rw [step, SessionClipboardAuthority.claim]
  split
  · rfl
  · rw [hkeep]
    dsimp only
    rw [if_pos (by simp [howner])]
    rfl

/-- Nothing is claimed inside a commit. -/
theorem claim_inside {sessionId : Int} {generation : Nat}
    {replaceExisting : Bool} {ownerAlive claimantAlive : Liveness}
    (hdepth : run.authority.commitDepth ≠ 0) :
    run.step (.claim sessionId generation replaceExisting ownerAlive
      claimantAlive) = run := by
  rw [step, SessionClipboardAuthority.claim, if_pos hdepth]
  rfl

/-- Nothing is revoked inside a commit. -/
theorem revoke_inside {owner : ClipboardOwner} {isAlive : Liveness}
    (hdepth : run.authority.commitDepth ≠ 0) :
    run.step (.revoke owner isAlive) = run := by
  rw [step, SessionClipboardAuthority.revoke, if_pos hdepth]

/-- A commit starts with its triple as the owner, or does not start. -/
theorem enter_owner (owner : ClipboardOwner) (isAlive : Liveness) :
    (run.step (.enter owner isAlive)).running = run.running
      ∨ ((run.step (.enter owner isAlive)).running = owner :: run.running
        ∧ (run.step (.enter owner isAlive)).authority.isOwner owner
          = true) := by
  rw [step, SessionClipboardAuthority.enter]
  split
  · exact Or.inl rfl
  · next howner =>
      rw [Bool.not_eq_true', Bool.not_eq_false] at howner
      exact Or.inr ⟨rfl, howner⟩

/-- What it takes for `withAuthority` to return true. -/
theorem returned_true {commit : Option Bool} {isAlive : Liveness}
    (h : run.returned commit isAlive = true) :
    commit = some true ∧ isAlive = some true
      ∧ ∃ owner, run.running.head? = some owner
        ∧ (run.step (.leave commit isAlive)).authority.isOwner owner
          = true := by
  rw [returned] at h
  split at h
  · cases h
  · next owner running hrunning =>
      have howner := h
      rw [SessionClipboardAuthority.leave, Bool.and_eq_true] at howner
      obtain ⟨haccepted, howner⟩ := howner
      obtain ⟨-, htoken, -, hcurrent, -⟩ :=
        SessionClipboardAuthority.isOwner_iff.mp howner
      have hcommit : commit = some true := by
        rcases commit with _ | _ | _
        · cases haccepted
        · cases haccepted
        · rfl
      refine ⟨hcommit, ?_, owner, by rw [hrunning]; rfl, ?_⟩
      · -- an owner that was discarded has no token left
        rcases SessionClipboardAuthority.discardDeadOwner_cases
          { run.authority with
            commitDepth := run.authority.commitDepth - 1 } isAlive
          with ⟨heq, halive⟩ | ⟨heq, -⟩
        · refine halive ?_
          rw [heq] at hcurrent
          omega
        · rw [heq, SessionClipboardAuthority.clearOwner] at hcurrent
          exact absurd hcurrent.symm htoken.ne'
      · rw [step, hrunning]
        exact howner

end AuthorityRun

/-- Whoever calls what, and whatever is answered: tokens increase; one triple
at most is the owner; a claim that replaces nothing leaves an owner that is
reported alive, and claims and revocations inside a commit do nothing; a
commit starts only where its triple is the owner, and no other becomes the
owner while it runs, though asking about a dead one inside it leaves none;
and `withAuthority` returns true only where the commit did and its triple is
the owner behind it, and alive. -/
theorem clipboard_authority (initialEpoch : Nat)
    (calls : List AuthorityCall) :
    (authorityRun initialEpoch calls).tokens.Pairwise (· < ·)
      ∧ EveryAt (fun before call =>
        let run := authorityRun initialEpoch before
        let next := run.step call
        (∀ owner owner', run.authority.isOwner owner = true →
            run.authority.isOwner owner' = true → owner = owner')
          ∧ (∀ sessionId generation ownerAlive claimantAlive,
            call = .claim sessionId generation false ownerAlive
              claimantAlive →
            run.authority.token ≠ 0 → ownerAlive = some true → next = run)
          ∧ (run.running ≠ [] →
            (∀ sessionId generation replaceExisting ownerAlive claimantAlive,
              call = .claim sessionId generation replaceExisting ownerAlive
                claimantAlive → next = run)
            ∧ (∀ owner isAlive, call = .revoke owner isAlive → next = run)
            ∧ ∀ owner ∈ run.running, next.authority.token = 0
              ∨ next.authority.isOwner owner = true)
          ∧ (∀ owner isAlive, call = .enter owner isAlive →
            next.running = run.running
              ∨ (next.running = owner :: run.running
                ∧ next.authority.isOwner owner = true))
          ∧ (∀ commit isAlive, call = .leave commit isAlive →
            run.returned commit isAlive = true →
              commit = some true ∧ isAlive = some true
                ∧ ∃ owner, run.running.head? = some owner
                  ∧ next.authority.isOwner owner = true)) calls := by
  refine ⟨(kept_authorityRun initialEpoch calls).increasing, ?_⟩
  rintro before call after -
  have hkept := kept_authorityRun initialEpoch before
  intro run next
  refine ⟨fun owner owner' => SessionClipboardAuthority.isOwner_unique,
    ?_, fun hrunning => ⟨?_, ?_, fun owner howner => ?_⟩, ?_, ?_⟩
  · rintro sessionId generation ownerAlive claimantAlive hcall howner rfl
    show run.step call = run
    rw [hcall]
    exact AuthorityRun.claim_refused howner
  · rintro sessionId generation replaceExisting ownerAlive claimantAlive hcall
    show run.step call = run
    rw [hcall]
    apply AuthorityRun.claim_inside
    rw [hkept.depth]
    exact List.length_eq_zero_iff.not.mpr hrunning
  · rintro owner isAlive hcall
    show run.step call = run
    rw [hcall]
    apply AuthorityRun.revoke_inside
    rw [hkept.depth]
    exact List.length_eq_zero_iff.not.mpr hrunning
  · exact hkept.running_step call howner
  · rintro owner isAlive rfl
    exact AuthorityRun.enter_owner owner isAlive
  · rintro commit isAlive rfl h
    exact AuthorityRun.returned_true h

/-- A commit asks about its owner, which is dead by then, and goes on. -/
theorem commit_runs_on :
    let owner : ClipboardOwner := ⟨1, 1, 1⟩
    let run := authorityRun 0 [.claim 1 1 false none (some true),
      .enter owner (some true), .owns owner (some false)]
    run.running = [owner] ∧ run.authority.isOwner owner = false := by
  decide

end RemoteDesk.Clipboard
