/-
Runs of the owner of a lost RustDesk connection
(rustdesk/rustdesk_connection_continuity_owner.h).

# What a run remembers

A run keeps the marks of the owner, the charge of the attempt that is
scheduled, the attempt that is in flight, and every start. An attempt is named
by the place of its charge. It is in flight from its start until its own
result is reported, or until the session begins anew, is cancelled, loses its
transport or has the attempt cancelled.

# What goes wrong

`recordAttemptResult` names no attempt and does not look whether the session
is over. A result behind a cancel, and an event behind it that would be
retried or that reports success, put the state back among the living. A
failure of an attempt that is over clears the flag of the one in flight, and
schedules another beside it.
-/
import RemoteDesk.RustDesk.ContinuityOwner

namespace RemoteDesk.RustDesk

open Lib

-- =================================== marks

/-- The charges since the window was opened. -/
def openCharges (marks : List Mark) : Nat :=
  marks.foldl (fun charges mark =>
    match mark with
    | .Charged => charges + 1
    | _ => 0) 0

/-- The time of a window was over, or its generation was older. -/
def Mark.Due : Mark → Prop
  | .Elapsed since now => since + kAttemptWindowMs ≤ now
  | .NewGeneration old new => old < new
  | _ => True

/-- Between two openings of the window at most five attempts are charged. -/
def WindowsKept (marks : List Mark) : Prop :=
  ∀ before charges behind, marks = before ++ charges ++ behind →
    (∀ mark ∈ charges, mark = .Charged) →
      charges.length ≤ kMaxAttemptsPerWindow

@[simp] theorem openCharges_append (marks marks' : List Mark) :
    openCharges (marks ++ marks') = marks'.foldl (fun charges mark =>
      match mark with
      | .Charged => charges + 1
      | _ => 0) (openCharges marks) :=
  List.foldl_append

theorem openCharges_charged (marks charges : List Mark)
    (h : ∀ mark ∈ charges, mark = .Charged) :
    openCharges (marks ++ charges) = openCharges marks + charges.length := by
  induction charges generalizing marks with
  | nil => simp
  | cons mark charges ih =>
    have hmark : mark = .Charged := h mark List.mem_cons_self
    have hrest := ih (marks ++ [mark])
      fun m hm => h m (List.mem_cons_of_mem _ hm)
    rw [List.append_cons, hrest, hmark, List.length_cons]
    simp [openCharges]
    omega

/-- The window holds at every prefix of the marks. -/
def PrefixesKept (marks : List Mark) : Prop :=
  ∀ front, front <+: marks → openCharges front ≤ kMaxAttemptsPerWindow

variable {marks : List Mark}

theorem PrefixesKept.windows (h : PrefixesKept marks) : WindowsKept marks := by
  intro before charges behind hmarks hcharged
  have hfront := h (before ++ charges) ⟨behind, hmarks.symm⟩
  rw [openCharges_charged before charges hcharged] at hfront
  omega

theorem PrefixesKept.snoc {mark : Mark} (h : PrefixesKept marks)
    (hlast : openCharges (marks ++ [mark]) ≤ kMaxAttemptsPerWindow) :
    PrefixesKept (marks ++ [mark]) := by
  intro front hfront
  rcases List.prefix_concat_iff.1 hfront with rfl | hfront
  · exact hlast
  · exact h front hfront

-- ==================================== runs

inductive ContinuityOp where
  | begin (sessionId sessionGeneration nowMs : Nat)
  | transportEvent (event : RustDeskTransportEvent)
  | networkChanged (available : Bool) (generation nowMs : Nat)
  | poll (nowMs : Nat)
  | attemptResult (attempt : Nat) (succeeded : Bool) (nowMs : Nat)
  | cancel
deriving DecidableEq, Repr

def ContinuityOp.decision (owner : RustDeskConnectionContinuityOwner) :
    ContinuityOp → Decision
  | .begin sessionId sessionGeneration nowMs =>
    owner.begin sessionId sessionGeneration nowMs
  | .transportEvent event => owner.onTransportEvent event
  | .networkChanged available generation nowMs =>
    owner.onNetworkChanged available generation nowMs
  | .poll nowMs => owner.poll nowMs
  | .attemptResult _ succeeded nowMs =>
    owner.recordAttemptResult succeeded nowMs
  | .cancel => owner.cancel

/-- The clock value an operation carries. -/
def ContinuityOp.clock : ContinuityOp → Option Nat
  | .begin _ _ nowMs => some nowMs
  | .transportEvent event => some event.monotonicMs
  | .networkChanged _ _ nowMs => some nowMs
  | .poll nowMs => some nowMs
  | .attemptResult _ _ nowMs => some nowMs
  | .cancel => none

/-- A start: the charge of the attempt, the attempt in flight beside it, and
whether the session was over. -/
structure Start where
  charge : Option Nat
  beside : Option Nat
  ended : Bool
deriving DecidableEq, Repr

structure ContinuityRun where
  owner : RustDeskConnectionContinuityOwner := {}
  clock : Nat := 0
  marks : List Mark := []
  scheduled : Option Nat := none
  flying : Option Nat := none
  starts : List Start := []
  ended : Bool := false
deriving DecidableEq, Repr

/-- An event that ends the session. -/
def fatalEvent (event : RustDeskTransportEvent) : Bool :=
  event.userInitiated || event.error && !isRetryable event.errorClass

namespace ContinuityRun

def charges (run : ContinuityRun) : Nat := run.marks.count .Charged

/-- The attempt that stays in flight apart from what the operation starts. -/
def kept (run : ContinuityRun) : ContinuityOp → Option Nat
  | .begin _ _ _ | .cancel => none
  | .transportEvent event =>
    if run.owner.staleEvent event.networkGeneration then run.flying
    else none
  | .networkChanged available generation nowMs =>
    if (run.owner.onNetworkChanged available generation
        nowMs).action.cancelAttempt then none
    else run.flying
  | .poll _ => run.flying
  | .attemptResult attempt _ _ =>
    if run.flying = some attempt then none else run.flying

/-- Whether the session is over behind an operation. -/
def endedBehind (run : ContinuityRun) : ContinuityOp → Bool
  | .begin _ _ _ => false
  | .cancel => true
  | .transportEvent event => run.ended
      || !run.owner.staleEvent event.networkGeneration && fatalEvent event
  | _ => run.ended

/-- The charge of an attempt that the operation schedules or starts: the one
it made, else the one that was scheduled. -/
def booked (run : ContinuityRun) (decision : Decision) : Option Nat :=
  if .Charged ∈ decision.marks then some run.charges else run.scheduled

def step (run : ContinuityRun) (op : ContinuityOp) : ContinuityRun :=
  let decision := op.decision run.owner
  let started := decision.action.startAttempt
  { owner := decision.owner
    clock := op.clock.getD run.clock
    marks := run.marks ++ decision.marks
    scheduled :=
      if decision.owner.retryScheduled then run.booked decision else none
    flying := if started then run.booked decision else run.kept op
    starts := run.starts ++
      if started then
        [{ charge := run.booked decision
           beside := run.kept op
           ended := run.ended }]
      else []
    ended := run.endedBehind op }

/-- A run that has just begun. -/
def start (sessionId sessionGeneration nowMs : Nat) : ContinuityRun :=
  step {} (.begin sessionId sessionGeneration nowMs)

end ContinuityRun

-- ============================== conditions

/-- The clock does not run back, and a result is of an attempt that was
started. -/
def InOrder (run : ContinuityRun) (op : ContinuityOp) : Prop :=
  run.clock ≤ op.clock.getD run.clock ∧ match op with
    | .attemptResult attempt _ _ =>
      some attempt ∈ run.starts.map (·.charge)
    | _ => True

/-- Behind the end of a session come no results, and no events but old or
fatal ones; and no failure of another attempt is reported while one is in
flight. -/
def Fits (run : ContinuityRun) : ContinuityOp → Prop
  | .transportEvent event => run.ended = true →
      run.owner.staleEvent event.networkGeneration = true
        ∨ fatalEvent event = true
  | .attemptResult attempt succeeded _ => run.ended = false
      ∧ (succeeded = true ∨ run.flying = none ∨ run.flying = some attempt)
  | _ => True

/-- What the owner promises of a run. -/
structure Continuous (run : ContinuityRun) : Prop where
  windows : WindowsKept run.marks
  due : ∀ mark ∈ run.marks, mark.Due
  charged : ∀ s ∈ run.starts, ∃ charge, s.charge = some charge
    ∧ charge < run.charges
  once : (run.starts.map (·.charge)).Nodup
  alone : ∀ s ∈ run.starts, s.beside = none
  stopped : ∀ s ∈ run.starts, s.ended = false
  stays : run.ended = true → run.owner.state = .Terminal
    ∨ run.owner.state = .ReauthRequired
  live : run.owner.state = .TransportLost
      ∨ run.owner.state = .RetryPending →
    run.owner.networkAvailable = true →
      run.flying.isSome ∨ run.scheduled.isSome
        ∨ openCharges run.marks = kMaxAttemptsPerWindow

/-- An operation that comes from an older network. -/
def ContinuityOp.Stale (owner : RustDeskConnectionContinuityOwner) :
    ContinuityOp → Prop
  | .transportEvent event => owner.staleEvent event.networkGeneration = true
  | .networkChanged _ generation _ => owner.staleEvent generation = true
  | _ => False

variable {op : ContinuityOp} {run : ContinuityRun} {nowMs : Nat}

theorem stale_silent {owner : RustDeskConnectionContinuityOwner}
    (h : op.Stale owner) : op.decision owner = { owner } := by
  cases op with
  | transportEvent event =>
    exact if_pos h
  | networkChanged available generation nowMs =>
    exact if_pos h
  | begin | poll | attemptResult | cancel => exact h.elim

-- ================================ accounts

/-- The marks and the starts of a run agree. -/
structure Accounts (marks : List Mark) (starts : List Start) : Prop where
  prefixes : PrefixesKept marks
  due : ∀ mark ∈ marks, mark.Due
  charged : ∀ s ∈ starts, ∃ charge, s.charge = some charge
    ∧ charge < marks.count .Charged
  once : (starts.map (·.charge)).Nodup
  alone : ∀ s ∈ starts, s.beside = none
  stopped : ∀ s ∈ starts, s.ended = false

section Accounts

variable {starts : List Start}

theorem Accounts.opens (h : Accounts marks starts) {mark : Mark}
    (hmark : mark ≠ .Charged) (hdue : mark.Due) :
    Accounts (marks ++ [mark]) starts
      ∧ openCharges (marks ++ [mark]) = 0
      ∧ (marks ++ [mark]).count .Charged = marks.count .Charged := by
  have hopen : openCharges (marks ++ [mark]) = 0 := by
    rw [openCharges_append]
    cases mark with
    | Charged => exact absurd rfl hmark
    | _ => rfl
  have hcount : (marks ++ [mark]).count .Charged = marks.count .Charged := by
    rw [List.count_append, List.count_singleton, if_neg (by simpa using hmark)]
    rfl
  refine ⟨⟨?_, ?_, ?_, h.once, h.alone, h.stopped⟩, hopen, hcount⟩
  · apply h.prefixes.snoc
    rw [hopen]
    exact Nat.zero_le _
  · intro m hm
    rcases List.mem_append.1 hm with hm | hm
    · exact h.due m hm
    · rw [List.mem_singleton.1 hm]
      exact hdue
  · rw [hcount]
    exact h.charged

theorem Accounts.charges (h : Accounts marks starts)
    (hroom : openCharges marks < kMaxAttemptsPerWindow) :
    Accounts (marks ++ [Mark.Charged]) starts
      ∧ openCharges (marks ++ [Mark.Charged]) = openCharges marks + 1
      ∧ (marks ++ [Mark.Charged]).count .Charged = marks.count .Charged + 1 := by
  have hopen : openCharges (marks ++ [Mark.Charged]) = openCharges marks + 1 := by
    rw [openCharges_append]
    rfl
  have hcount : (marks ++ [Mark.Charged]).count .Charged
      = marks.count .Charged + 1 := by
    rw [List.count_append]
    rfl
  refine ⟨⟨?_, ?_, ?_, h.once, h.alone, h.stopped⟩, hopen, hcount⟩
  · apply h.prefixes.snoc
    rw [hopen]
    exact hroom
  · intro m hm
    rcases List.mem_append.1 hm with hm | hm
    · exact h.due m hm
    · rw [List.mem_singleton.1 hm]
      trivial
  · intro s hs
    obtain ⟨charge, hcharge, hlt⟩ := h.charged s hs
    exact ⟨charge, hcharge, by omega⟩

theorem Accounts.start (h : Accounts marks starts) {charge : Nat}
    (hcharged : charge < marks.count .Charged)
    (hfresh : some charge ∉ starts.map (·.charge)) :
    Accounts marks (starts ++ [⟨some charge, none, false⟩]) := by
  refine ⟨h.prefixes, h.due, ?_, ?_, ?_, ?_⟩
  · intro s hs
    rcases List.mem_append.1 hs with hs | hs
    · exact h.charged s hs
    · rw [List.mem_singleton.1 hs]
      exact ⟨charge, rfl, hcharged⟩
  · rw [List.map_append, List.map_singleton]
    refine List.nodup_append.2 ⟨h.once, List.nodup_singleton _, ?_⟩
    intro a ha b hb heq
    rw [heq, List.mem_singleton.1 hb] at ha
    exact hfresh ha
  · intro s hs
    rcases List.mem_append.1 hs with hs | hs
    · exact h.alone s hs
    · rw [List.mem_singleton.1 hs]
  · intro s hs
    rcases List.mem_append.1 hs with hs | hs
    · exact h.stopped s hs
    · rw [List.mem_singleton.1 hs]

/-- A charge that was just made is of no start. -/
theorem Accounts.fresh (h : Accounts marks starts) :
    some (marks.count .Charged) ∉ starts.map (·.charge) := by
  intro hmem
  obtain ⟨s, hs, hcharge⟩ := List.mem_map.1 hmem
  obtain ⟨charge, hcharge', hlt⟩ := h.charged s hs
  rw [hcharge, Option.some.injEq] at hcharge'
  omega

end Accounts

-- =============================== the owner

namespace RustDeskConnectionContinuityOwner

theorem renewWindow_cases (owner : RustDeskConnectionContinuityOwner)
    (nowMs : Nat) :
    owner.renewWindow nowMs = (owner, [])
      ∨ owner.renewWindow nowMs
          = ({ owner with
                windowStartedMs := nowMs
                attempts := 0 },
              [.Elapsed owner.windowStartedMs nowMs])
        ∧ kAttemptWindowMs ≤ elapsed owner.windowStartedMs nowMs := by
  unfold renewWindow
  by_cases hdue : elapsed owner.windowStartedMs nowMs ≥ kAttemptWindowMs
  · rw [if_pos hdue]
    exact .inr ⟨rfl, hdue⟩
  · rw [if_neg hdue]
    exact .inl rfl

/-- The first attempt is blocked, or the window is exhausted, or it starts. -/
theorem scheduleFirstAttempt_cases
    (owner : RustDeskConnectionContinuityOwner) (nowMs : Nat)
    (action : RustDeskContinuityAction) :
    (owner.scheduleFirstAttempt nowMs action = { owner, action }
        ∧ (owner.cancelled = true ∨ owner.networkAvailable = false
          ∨ owner.retryScheduled = true ∨ owner.attemptInFlight = true
          ∨ kMaxAttemptsPerWindow ≤ owner.attempts))
      ∨ (owner.cancelled = false ∧ owner.retryScheduled = false
        ∧ owner.attemptInFlight = false
        ∧ ∃ renewed marks, owner.renewWindow nowMs = (renewed, marks)
          ∧ renewed.attempts < kMaxAttemptsPerWindow
          ∧ owner.scheduleFirstAttempt nowMs action
            = { owner :=
                  { renewed with
                    attempts := renewed.attempts + 1
                    attemptInFlight := true
                    state := .RetryPending }
                action :=
                  { action with
                    startAttempt := true
                    attempt := renewed.attempts + 1 }
                marks := marks ++ [Mark.Charged] }) := by
  unfold scheduleFirstAttempt
  split
  · rename_i hblocked
    simp only [Bool.or_eq_true, Bool.not_eq_true'] at hblocked
    refine .inl ⟨rfl, ?_⟩
    rcases hblocked with ((h | h) | h) | h
    · exact .inl h
    · exact .inr (.inl h)
    · exact .inr (.inr (.inl h))
    · exact .inr (.inr (.inr (.inl h)))
  · rename_i hfree
    simp only [Bool.or_eq_true, Bool.not_eq_true', not_or,
      Bool.not_eq_true, Bool.not_eq_false] at hfree
    rcases owner.renewWindow_cases nowMs with hsame | ⟨hrenewed, -⟩
    · rw [hsame]
      dsimp only
      by_cases hfull : owner.attempts ≥ kMaxAttemptsPerWindow
      · rw [if_pos hfull]
        exact .inl ⟨rfl, .inr (.inr (.inr (.inr hfull)))⟩
      · rw [if_neg hfull]
        exact .inr ⟨hfree.1.1.1, hfree.1.2, hfree.2, owner, [], rfl,
          Nat.lt_of_not_le hfull, rfl⟩
    · rw [hrenewed]
      dsimp only
      rw [if_neg (by decide)]
      have hroom : 0 < kMaxAttemptsPerWindow := by decide
      exact .inr ⟨hfree.1.1.1, hfree.1.2, hfree.2, _, _, rfl, hroom, rfl⟩

end RustDeskConnectionContinuityOwner

-- =============================== invariant

/-- What the flags of the owner mean for a run, but for a schedule that is
due. -/
structure Kept (run : ContinuityRun) : Prop where
  accounts : Accounts run.marks run.starts
  attempts : run.owner.attempts = openCharges run.marks
  window : run.owner.windowStartedMs ≤ run.clock
  scheduled : run.owner.retryScheduled = run.scheduled.isSome
  waiting : ∀ charge, run.scheduled = some charge →
    charge < run.charges ∧ some charge ∉ run.starts.map (·.charge)
  exclusive : run.owner.retryScheduled = true →
    run.owner.attemptInFlight = false
  flag : run.owner.attemptInFlight = true → run.flying.isSome
  late : run.flying.isSome → run.owner.attemptInFlight = true
    ∨ run.owner.state = .Connected ∧ run.owner.retryScheduled = false
  cancelled : run.owner.cancelled = run.ended
  stays : run.ended = true → run.owner.retryScheduled = false
    ∧ run.owner.attemptInFlight = false ∧ run.flying = none
    ∧ (run.owner.state = .Terminal ∨ run.owner.state = .ReauthRequired)

/-- Nothing that was lost is left without an attempt. -/
def Live (run : ContinuityRun) : Prop :=
  run.owner.state = .TransportLost ∨ run.owner.state = .RetryPending →
    run.owner.networkAvailable = true →
      run.owner.attemptInFlight = true ∨ run.owner.retryScheduled = true
        ∨ kMaxAttemptsPerWindow ≤ run.owner.attempts

theorem Kept.bound (h : Kept run) :
    run.owner.attempts ≤ kMaxAttemptsPerWindow := by
  rw [h.attempts]
  exact h.accounts.prefixes run.marks (List.prefix_refl _)

theorem Kept.continuous (h : Kept run) (hlive : Live run) : Continuous run where
  windows := h.accounts.prefixes.windows
  due := h.accounts.due
  charged := h.accounts.charged
  once := h.accounts.once
  alone := h.accounts.alone
  stopped := h.accounts.stopped
  stays hended := (h.stays hended).2.2.2
  live hstate hnetwork := by
    rcases hlive hstate hnetwork with hflag | hscheduled | hfull
    · exact .inl (h.flag hflag)
    · rw [h.scheduled] at hscheduled
      exact .inr (.inl hscheduled)
    · rw [← h.attempts]
      exact .inr (.inr (Nat.le_antisymm h.bound hfull))

/-- A window that is over is opened anew. -/
theorem Kept.renews (h : Kept run) {renewed : RustDeskConnectionContinuityOwner}
    (hrenewed : run.owner.renewWindow run.clock = (renewed, marks)) :
    Accounts (run.marks ++ marks) run.starts
      ∧ renewed.attempts = openCharges (run.marks ++ marks)
      ∧ (run.marks ++ marks).count .Charged = run.charges
      ∧ renewed.windowStartedMs ≤ run.clock
      ∧ ∃ attempts windowStartedMs, renewed =
        { run.owner with
          attempts
          windowStartedMs } := by
  rcases run.owner.renewWindow_cases run.clock with hsame | ⟨hopened, hdue⟩
  · rw [hsame, Prod.mk.injEq] at hrenewed
    obtain ⟨rfl, rfl⟩ := hrenewed
    rw [List.append_nil]
    exact ⟨h.accounts, h.attempts, rfl, h.window, _, _, rfl⟩
  · rw [hopened, Prod.mk.injEq] at hrenewed
    obtain ⟨rfl, rfl⟩ := hrenewed
    have hwindow := h.window
    have hover : Mark.Due (.Elapsed run.owner.windowStartedMs run.clock) := by
      show run.owner.windowStartedMs + kAttemptWindowMs ≤ run.clock
      unfold elapsed at hdue
      have hsame : (run.clock + 2 ^ 64 - run.owner.windowStartedMs) % 2 ^ 64
          = (run.clock - run.owner.windowStartedMs) % 2 ^ 64 := by
        rw [Nat.sub_add_comm hwindow, Nat.add_mod_right]
      have hle := Nat.mod_le (run.clock - run.owner.windowStartedMs) (2 ^ 64)
      omega
    obtain ⟨haccounts, hopen, hcount⟩ := h.accounts.opens
      (Mark.noConfusion : Mark.Elapsed _ _ ≠ .Charged) hover
    exact ⟨haccounts, hopen.symm, hcount, le_rfl, _, _, rfl⟩

-- =============================== schedules

/-- A run in which the owner has just scheduled a first attempt. -/
def ContinuityRun.schedule (run : ContinuityRun)
    (action : RustDeskContinuityAction) : ContinuityRun :=
  let decision := run.owner.scheduleFirstAttempt run.clock action
  { run with
    owner := decision.owner
    marks := run.marks ++ decision.marks
    flying := if decision.action.startAttempt then some run.charges
      else run.flying
    starts := run.starts ++
      if decision.action.startAttempt then
        [{ charge := some run.charges
           beside := run.flying
           ended := run.ended }]
      else [] }

/-- A first attempt is charged and starts alone, and what was lost stays
live. -/
theorem Kept.schedules (h : Kept run) {action : RustDeskContinuityAction}
    (haction : action.startAttempt = false) (hended : run.ended = false)
    (hidle : run.owner.attemptInFlight = false → run.flying = none) :
    Kept (run.schedule action) ∧ Live (run.schedule action) := by
  rcases run.owner.scheduleFirstAttempt_cases run.clock action with
    ⟨hsame, hblocked⟩ | ⟨hcancelled, hscheduled, hflight, renewed, marks,
      hrenewed, hroom, hstarts⟩
  · have hrun : run.schedule action = run := by
      simp [ContinuityRun.schedule, hsame, haction]
    rw [hrun]
    refine ⟨h, fun _ hnetwork => ?_⟩
    rcases hblocked with hblocked | hblocked | hblocked | hblocked | hblocked
    · rw [h.cancelled, hended] at hblocked
      exact Bool.noConfusion hblocked
    · rw [hnetwork] at hblocked
      exact Bool.noConfusion hblocked
    · exact .inr (.inl hblocked)
    · exact .inl hblocked
    · exact .inr (.inr hblocked)
  · obtain ⟨haccounts, hopen, hcount, hwindow, attempts, windowStartedMs,
      howner⟩ := h.renews hrenewed
    have hflying := hidle hflight
    rw [hopen] at hroom
    obtain ⟨hcharged, hopen', hcount'⟩ := haccounts.charges hroom
    have hfresh : some run.charges ∉ run.starts.map (·.charge) :=
      h.accounts.fresh
    have hstarted : Accounts (run.marks ++ (marks ++ [.Charged]))
        (run.starts ++ [⟨some run.charges, none, false⟩]) := by
      rw [← List.append_assoc]
      refine hcharged.start ?_ hfresh
      rw [hcount', hcount]
      exact Nat.lt_succ_self _
    have hrun : run.schedule action = { run with
        owner :=
          { renewed with
            attempts := renewed.attempts + 1
            attemptInFlight := true
            state := .RetryPending }
        marks := run.marks ++ (marks ++ [.Charged])
        flying := some run.charges
        starts := run.starts ++ [⟨some run.charges, none, false⟩] } := by
      simp [ContinuityRun.schedule, hstarts, hflying, hended]
    have hunscheduled : run.scheduled = none := by
      have hnone := h.scheduled
      rw [hscheduled] at hnone
      exact Option.isNone_iff_eq_none.1 (by simpa using hnone.symm)
    rw [hrun]
    refine ⟨⟨hstarted, ?_, hwindow, ?_, ?_, ?_, fun _ => rfl, fun _ => .inl rfl,
      ?_, ?_⟩, fun _ _ => .inl rfl⟩
    · show renewed.attempts + 1
        = openCharges (run.marks ++ (marks ++ [.Charged]))
      rw [← List.append_assoc, hopen', hopen]
    · show renewed.retryScheduled = run.scheduled.isSome
      rw [howner]
      exact h.scheduled
    · intro charge hcharge
      rw [show run.scheduled = some charge from hcharge] at hunscheduled
      cases hunscheduled
    · intro hcontra
      have hcontra' : renewed.retryScheduled = true := hcontra
      rw [howner] at hcontra'
      exact Bool.noConfusion (hscheduled.symm.trans hcontra')
    · show renewed.cancelled = run.ended
      rw [howner]
      exact h.cancelled
    · intro hcontra
      exact Bool.noConfusion (hended.symm.trans hcontra)

theorem Decision.behind_nil (decision : Decision) :
    { decision with marks := [] ++ decision.marks } = decision :=
  rfl

/-- A step that schedules a first attempt, behind what it changed before. -/
theorem step_schedule {prepared : ContinuityRun}
    {action : RustDeskContinuityAction} (opened : List Mark)
    (hdecision : op.decision run.owner =
      { prepared.owner.scheduleFirstAttempt prepared.clock action with
        marks := opened ++ (prepared.owner.scheduleFirstAttempt
          prepared.clock action).marks }) (hopened : Mark.Charged ∉ opened)
    (hprepared : prepared =
      { owner := prepared.owner
        clock := op.clock.getD run.clock
        marks := run.marks ++ opened
        scheduled :=
          if prepared.owner.retryScheduled then run.scheduled else none
        flying := run.kept op
        starts := run.starts
        ended := run.ended }) (hended : run.endedBehind op = run.ended)
    (haction : action.startAttempt = false) :
    run.step op = prepared.schedule action := by
  have hcharges : prepared.charges = run.charges := by
    rw [hprepared]
    simp [ContinuityRun.charges, List.count_eq_zero_of_not_mem hopened]
  rcases prepared.owner.scheduleFirstAttempt_cases prepared.clock action with
    ⟨hsame, -⟩ | ⟨-, hscheduled, -, renewed, marks, hrenewed, -, hstarts⟩
  · rw [hsame] at hdecision
    have hbooked : run.booked (op.decision run.owner) = run.scheduled := by
      rw [hdecision]
      simp [ContinuityRun.booked, hopened]
    rw [hdecision] at hbooked
    rw [ContinuityRun.step, ContinuityRun.schedule, hsame]
    simp only [hdecision, hbooked, haction, hended]
    rw [hprepared]
    simp
  · have hunscheduled : renewed.retryScheduled = false := by
      rcases prepared.owner.renewWindow_cases prepared.clock with h | ⟨h, -⟩ <;>
      · rw [h, Prod.mk.injEq] at hrenewed
        rw [← hrenewed.1]
        exact hscheduled
    rw [hstarts] at hdecision
    have hbooked : run.booked (op.decision run.owner) = some run.charges := by
      rw [hdecision]
      simp [ContinuityRun.booked]
    rw [ContinuityRun.step, ContinuityRun.schedule, hstarts, hcharges]
    simp only [hbooked]
    rw [hdecision]
    simp only [hended, hunscheduled]
    rw [hprepared]
    simp [hscheduled]

/-- A step in which no attempt is in flight any more, and none starts. -/
theorem Kept.rests {run' : ContinuityRun} (h : Kept run)
    (haccounts : Accounts run'.marks run'.starts)
    (hattempts : run'.owner.attempts = openCharges run'.marks)
    (hcharges : run'.charges = run.charges) (hstarts : run'.starts = run.starts)
    (hwindow : run'.owner.windowStartedMs ≤ run'.clock)
    (hscheduled : run'.owner.retryScheduled = run.owner.retryScheduled
        ∧ run'.scheduled = run.scheduled
      ∨ run'.owner.retryScheduled = false ∧ run'.scheduled = none)
    (hflight : run'.owner.attemptInFlight = false)
    (hflying : run'.flying = none)
    (hcancelled : run'.owner.cancelled = run'.ended)
    (hstays : run'.ended = true → run'.owner.retryScheduled = false
      ∧ (run'.owner.state = .Terminal
        ∨ run'.owner.state = .ReauthRequired)) : Kept run' where
  accounts := haccounts
  attempts := hattempts
  window := hwindow
  scheduled := by
    rcases hscheduled with ⟨hsame, hsame'⟩ | ⟨hnone, hnone'⟩
    · rw [hsame, hsame']
      exact h.scheduled
    · rw [hnone, hnone']
      rfl
  waiting charge hcharge := by
    rcases hscheduled with ⟨-, hsame⟩ | ⟨-, hnone⟩
    · rw [hsame] at hcharge
      rw [hcharges, hstarts]
      exact h.waiting charge hcharge
    · rw [hnone] at hcharge
      cases hcharge
  exclusive _ := hflight
  flag hcontra := Bool.noConfusion (hflight.symm.trans hcontra)
  late hcontra := by
    rw [hflying] at hcontra
    exact Bool.noConfusion hcontra
  cancelled := hcancelled
  stays hended := ⟨(hstays hended).1, hflight, hflying, (hstays hended).2⟩

-- =================================== steps

theorem Kept.waits (h : Kept run) :
    (if run.owner.retryScheduled = true then run.scheduled else none)
      = run.scheduled := by
  rw [h.scheduled]
  cases run.scheduled <;> rfl

/-- A step of which only the owner and the clock tell. -/
theorem Kept.silent (h : Kept run) {owner : RustDeskConnectionContinuityOwner}
    (hdecision : op.decision run.owner = { owner })
    (hscheduled : owner.retryScheduled = run.owner.retryScheduled)
    (hkept : run.kept op = run.flying)
    (hended : run.endedBehind op = run.ended) :
    run.step op = { run with
      owner
      clock := op.clock.getD run.clock } := by
  have hbooked : run.booked { owner } = run.scheduled := by
    simp [ContinuityRun.booked]
  have hwaiting : (if owner.retryScheduled = true then run.scheduled else none)
      = run.scheduled := by
    rw [hscheduled]
    exact h.waits
  rw [ContinuityRun.step, hdecision]
  simp [hbooked, hwaiting, hkept, hended]

/-- The network and the clock bear on no flag. -/
theorem Kept.moved (h : Kept run) {clock : Nat} (hclock : run.clock ≤ clock)
    (networkGeneration : Nat) (networkAvailable : Bool) :
    Kept { run with
      owner :=
        { run.owner with
          networkGeneration
          networkAvailable }
      clock } where
  accounts := h.accounts
  attempts := h.attempts
  window := Nat.le_trans h.window hclock
  scheduled := h.scheduled
  waiting := h.waiting
  exclusive := h.exclusive
  flag := h.flag
  late := h.late
  cancelled := h.cancelled
  stays := h.stays

theorem step_begin (h : Kept run) (sessionId sessionGeneration nowMs : Nat) :
    Kept (run.step (.begin sessionId sessionGeneration nowMs))
      ∧ Live (run.step (.begin sessionId sessionGeneration nowMs)) := by
  obtain ⟨haccounts, hopen, hcount⟩ := h.accounts.opens
    (Mark.noConfusion : Mark.Begun ≠ .Charged) trivial
  have hstep : run.step (.begin sessionId sessionGeneration nowMs) =
      { owner :=
          (run.owner.begin sessionId sessionGeneration nowMs).owner
        clock := nowMs
        marks := run.marks ++ [.Begun]
        starts := run.starts } := by
    simp [ContinuityRun.step, ContinuityOp.decision, ContinuityOp.clock,
      ContinuityRun.kept, ContinuityRun.endedBehind,
      RustDeskConnectionContinuityOwner.begin]
  rw [hstep]
  constructor
  · refine h.rests haccounts hopen.symm hcount rfl le_rfl (.inr ⟨rfl, rfl⟩) rfl
      rfl rfl fun hended => ?_
    cases hended
  · rintro (hlost | hlost) <;> cases hlost

theorem step_cancel (h : Kept run) :
    Kept (run.step .cancel) ∧ Live (run.step .cancel) := by
  have hstep : run.step .cancel =
      { owner := run.owner.cancel.owner
        clock := run.clock
        marks := run.marks
        starts := run.starts
        ended := true } := by
    simp [ContinuityRun.step, ContinuityOp.decision, ContinuityOp.clock,
      ContinuityRun.kept, ContinuityRun.endedBehind,
      RustDeskConnectionContinuityOwner.cancel]
  rw [hstep]
  constructor
  · exact h.rests h.accounts h.attempts rfl rfl h.window (.inr ⟨rfl, rfl⟩) rfl
      rfl rfl fun _ => ⟨rfl, .inl rfl⟩
  · rintro (hlost | hlost) <;> cases hlost

/-- What is scheduled is not in flight, and nothing else is. -/
theorem Kept.grounded (h : Kept run)
    (hscheduled : run.owner.retryScheduled = true) : run.flying = none := by
  rcases hflying : run.flying with _ | charge
  · rfl
  · have hsome : run.flying.isSome := by rw [hflying]; rfl
    rcases h.late hsome with hflag | ⟨-, hnone⟩
    · exact Bool.noConfusion ((h.exclusive hscheduled).symm.trans hflag)
    · exact Bool.noConfusion (hnone.symm.trans hscheduled)

theorem step_poll (h : Kept run) (hlive : Live run)
    (hclock : run.clock ≤ nowMs) :
    Kept (run.step (.poll nowMs)) ∧ Live (run.step (.poll nowMs)) := by
  by_cases hwaits : (run.owner.cancelled || !run.owner.retryScheduled
      || !run.owner.networkAvailable || nowMs < run.owner.nextRetryMs) = true
  · have hdecision : (ContinuityOp.poll nowMs).decision run.owner
        = { owner := run.owner } := if_pos hwaits
    rw [h.silent hdecision rfl rfl rfl]
    exact ⟨h.moved hclock _ _, hlive⟩
  · have hpoll : (ContinuityOp.poll nowMs).decision run.owner = _ :=
      if_neg hwaits
    simp only [Bool.or_eq_true, Bool.not_eq_true', not_or, Bool.not_eq_true,
      Bool.not_eq_false] at hwaits
    obtain ⟨⟨⟨hcancelled, hscheduled⟩, -⟩, -⟩ := hwaits
    have hflying := h.grounded hscheduled
    have hended : run.ended = false := by rw [← h.cancelled, hcancelled]
    obtain ⟨charge, hcharge⟩ : ∃ charge, run.scheduled = some charge := by
      apply Option.isSome_iff_exists.1
      rw [← h.scheduled]
      exact hscheduled
    obtain ⟨hlt, hfresh⟩ := h.waiting charge hcharge
    have hstep : run.step (.poll nowMs) =
        { owner :=
            { run.owner with
              retryScheduled := false
              attemptInFlight := true
              state := .RetryPending }
          clock := nowMs
          marks := run.marks
          flying := some charge
          starts := run.starts ++ [⟨some charge, none, false⟩] } := by
      rw [ContinuityRun.step, hpoll]
      simp [ContinuityOp.clock, ContinuityRun.kept, ContinuityRun.booked,
        ContinuityRun.endedBehind, hcharge, hflying, hended]
    rw [hstep]
    refine ⟨⟨h.accounts.start hlt hfresh, h.attempts,
      Nat.le_trans h.window hclock, rfl, ?_, ?_, fun _ => rfl,
      fun _ => .inl rfl, hcancelled, ?_⟩, fun _ _ => .inl rfl⟩
    · intro c hc
      cases hc
    · intro hcontra
      cases hcontra
    · intro hcontra
      cases hcontra

theorem step_succeeded (h : Kept run) {attempt : Nat}
    (hclock : run.clock ≤ nowMs) (hended : run.ended = false) :
    Kept (run.step (.attemptResult attempt true nowMs))
      ∧ Live (run.step (.attemptResult attempt true nowMs)) := by
  obtain ⟨haccounts, hopen, hcount⟩ := h.accounts.opens
    (Mark.noConfusion : Mark.Succeeded ≠ .Charged) trivial
  have hstep : run.step (.attemptResult attempt true nowMs) =
      { owner := (run.owner.recordAttemptResult true nowMs).owner
        clock := nowMs
        marks := run.marks ++ [.Succeeded]
        flying := run.kept (.attemptResult attempt true nowMs)
        starts := run.starts
        ended := run.ended } := by
    simp [ContinuityRun.step, ContinuityOp.decision, ContinuityOp.clock,
      ContinuityRun.endedBehind,
      RustDeskConnectionContinuityOwner.recordAttemptResult]
  rw [hstep]
  refine ⟨⟨haccounts, hopen.symm, Nat.le_trans h.window hclock, rfl, ?_, ?_, ?_,
    fun _ => .inr ⟨rfl, rfl⟩, h.cancelled, ?_⟩, ?_⟩
  · intro charge hcharge
    cases hcharge
  · intro hcontra
    cases hcontra
  · intro hcontra
    cases hcontra
  · intro hcontra
    exact Bool.noConfusion (hended.symm.trans hcontra)
  · rintro (hlost | hlost) <;> cases hlost

/-- A failure of the attempt in flight, or while there is none, schedules
another as long as the window has room. -/
theorem step_failed (h : Kept run) {attempt : Nat} (hclock : run.clock ≤ nowMs)
    (hended : run.ended = false)
    (hkept : run.kept (.attemptResult attempt false nowMs) = none) :
    Kept (run.step (.attemptResult attempt false nowMs))
      ∧ Live (run.step (.attemptResult attempt false nowMs)) := by
  have hmoved : Kept { run with clock := nowMs } := h.moved hclock _ _
  rcases hrenewed : run.owner.renewWindow nowMs with ⟨renewed, marks⟩
  obtain ⟨haccounts, hopen, hcount, hwindow, attempts, windowStartedMs, howner⟩ :=
    hmoved.renews hrenewed
  have hcancelled : renewed.cancelled = run.ended := by
    rw [howner]
    exact h.cancelled
  have hdecision : (ContinuityOp.attemptResult attempt false nowMs).decision
      run.owner = run.owner.recordAttemptResult false nowMs := by
    rw [ContinuityOp.decision]
  rw [RustDeskConnectionContinuityOwner.recordAttemptResult,
    if_neg Bool.false_ne_true, hrenewed] at hdecision
  dsimp only at hdecision
  by_cases hover : (renewed.attempts ≥ kMaxAttemptsPerWindow
      || renewed.cancelled || !renewed.networkAvailable) = true
  · rw [if_pos (by simpa using hover)] at hdecision
    have hstep : run.step (.attemptResult attempt false nowMs) =
        { owner :=
            { renewed with
              attemptInFlight := false
              state := .TransportLost
              retryScheduled := false }
          clock := nowMs
          marks := run.marks ++ marks
          starts := run.starts
          ended := run.ended } := by
      rw [ContinuityRun.step, hdecision]
      simp [ContinuityOp.clock, ContinuityRun.endedBehind, hkept]
    rw [hstep]
    constructor
    · refine h.rests haccounts hopen hcount rfl hwindow (.inr ⟨rfl, rfl⟩) rfl rfl
        hcancelled fun hcontra => ?_
      exact Bool.noConfusion (hended.symm.trans hcontra)
    · intro _ hnetwork
      have hnetwork' : renewed.networkAvailable = true := hnetwork
      simp only [hcancelled, hended, hnetwork', Bool.not_true, Bool.or_false,
        decide_eq_true_eq] at hover
      exact .inr (.inr hover)
  · rw [if_neg (by simpa using hover)] at hdecision
    simp only [Bool.or_eq_true, decide_eq_true_eq, not_or, Nat.not_le] at hover
    obtain ⟨⟨hroom, -⟩, -⟩ := hover
    rw [hopen] at hroom
    obtain ⟨hcharged, hopen', hcount'⟩ := haccounts.charges hroom
    generalize (nowMs + _) % 2 ^ 64 = nextRetryMs at hdecision
    have hstep : run.step (.attemptResult attempt false nowMs) =
        { owner :=
            { renewed with
              attempts := renewed.attempts + 1
              nextRetryMs
              attemptInFlight := false
              state := .RetryPending
              retryScheduled := true }
          clock := nowMs
          marks := run.marks ++ marks ++ [.Charged]
          scheduled := some run.charges
          starts := run.starts
          ended := run.ended } := by
      rw [ContinuityRun.step, hdecision]
      simp [ContinuityOp.clock, ContinuityRun.endedBehind, hkept,
        ContinuityRun.booked]
    rw [hstep]
    refine ⟨⟨hcharged, ?_, hwindow, rfl, ?_, fun _ => rfl, ?_, ?_, hcancelled,
      ?_⟩, fun _ _ => .inr (.inl rfl)⟩
    · rw [hopen', ← hopen]
    · intro charge hcharge
      rw [Option.some.injEq] at hcharge
      rw [← hcharge]
      refine ⟨?_, h.accounts.fresh⟩
      show run.charges < (run.marks ++ marks ++ [Mark.Charged]).count .Charged
      rw [hcount', hcount]
      exact Nat.lt_succ_self _
    · intro hcontra
      cases hcontra
    · intro hcontra
      cases hcontra
    · intro hcontra
      exact Bool.noConfusion (hended.symm.trans hcontra)

/-- A run that has lost its transport, before anything is scheduled. -/
def ContinuityRun.lost (run : ContinuityRun) (event : RustDeskTransportEvent)
    (networkGeneration : Nat) : ContinuityRun :=
  { owner :=
      { run.owner with
        networkGeneration
        networkAvailable := event.networkAvailable
        fastQuiesced := true
        state := .TransportLost
        attemptInFlight := false }
    clock := event.monotonicMs
    marks := run.marks
    scheduled := run.scheduled
    starts := run.starts
    ended := run.ended }

/-- An event that is not old ends what was in flight. -/
theorem step_transportEvent (h : Kept run) (hlive : Live run)
    {event : RustDeskTransportEvent} (hclock : run.clock ≤ event.monotonicMs)
    (hfits : Fits run (.transportEvent event)) :
    Kept (run.step (.transportEvent event))
      ∧ Live (run.step (.transportEvent event)) := by
  by_cases hstale : run.owner.staleEvent event.networkGeneration = true
  · have hkept : run.kept (.transportEvent event) = run.flying := if_pos hstale
    have hended : run.endedBehind (.transportEvent event) = run.ended := by
      simp [ContinuityRun.endedBehind, hstale]
    have hsilent : ContinuityOp.Stale run.owner (.transportEvent event) := hstale
    rw [h.silent (stale_silent hsilent) rfl hkept hended]
    exact ⟨h.moved hclock _ _, hlive⟩
  have hkept : run.kept (.transportEvent event) = none := if_neg hstale
  have hbehind : run.endedBehind (.transportEvent event)
      = (run.ended || fatalEvent event) := by
    simp [ContinuityRun.endedBehind, hstale]
  have hover : fatalEvent event = false → run.ended = false := by
    intro hfatal
    cases hended : run.ended with
    | false => rfl
    | true =>
      rcases hfits hended with hold | hold
      · exact absurd hold hstale
      · exact Bool.noConfusion (hfatal.symm.trans hold)
  have hdecision : (ContinuityOp.transportEvent event).decision run.owner
      = run.owner.onTransportEvent event := by
    rw [ContinuityOp.decision]
  rw [RustDeskConnectionContinuityOwner.onTransportEvent, if_neg hstale]
    at hdecision
  generalize (if event.networkGeneration ≠ 0 then event.networkGeneration
    else run.owner.networkGeneration) = networkGeneration at hdecision
  by_cases hgood : (!event.error && !event.userInitiated) = true
  · rw [if_pos hgood] at hdecision
    simp only [Bool.and_eq_true, Bool.not_eq_true'] at hgood
    have hfatal : fatalEvent event = false := by
      simp [fatalEvent, hgood.1, hgood.2]
    have hended := hover hfatal
    have hstep : run.step (.transportEvent event) =
        { owner :=
            { run.owner with
              networkGeneration
              networkAvailable := event.networkAvailable
              state := .Connected
              retryScheduled := false
              attemptInFlight := false
              nextRetryMs := 0
              fastQuiesced := false }
          clock := event.monotonicMs
          marks := run.marks
          starts := run.starts
          ended := run.ended } := by
      rw [ContinuityRun.step, hdecision]
      simp [ContinuityOp.clock, hkept, hbehind, hfatal]
    rw [hstep]
    constructor
    · refine h.rests h.accounts h.attempts rfl rfl
        (Nat.le_trans h.window hclock) (.inr ⟨rfl, rfl⟩) rfl rfl h.cancelled
        fun hcontra => ?_
      exact Bool.noConfusion (hended.symm.trans hcontra)
    · rintro (hlost | hlost) <;> cases hlost
  rw [if_neg hgood] at hdecision
  by_cases hends : (event.userInitiated || !isRetryable event.errorClass) = true
  · rw [if_pos hends] at hdecision
    have hfatal : fatalEvent event = true := by
      cases herror : event.error <;> cases huser : event.userInitiated <;>
        simp_all [fatalEvent]
    have hstep : run.step (.transportEvent event) =
        { owner :=
            { run.owner with
              networkGeneration
              networkAvailable := event.networkAvailable
              fastQuiesced := true
              state :=
                RustDeskConnectionContinuityOwner.fatalState event.errorClass
              cancelled := true
              retryScheduled := false
              attemptInFlight := false }
          clock := event.monotonicMs
          marks := run.marks
          starts := run.starts
          ended := true } := by
      rw [ContinuityRun.step, hdecision]
      simp [ContinuityOp.clock, hkept, hbehind, hfatal]
    have hstate :
        RustDeskConnectionContinuityOwner.fatalState event.errorClass = .Terminal
        ∨ RustDeskConnectionContinuityOwner.fatalState event.errorClass
          = .ReauthRequired := by
      cases event.errorClass <;> decide
    rw [hstep]
    constructor
    · exact h.rests h.accounts h.attempts rfl rfl
        (Nat.le_trans h.window hclock) (.inr ⟨rfl, rfl⟩) rfl rfl rfl
        fun _ => ⟨rfl, hstate⟩
    · rintro (hlost | hlost)
      · rcases hstate with hstate | hstate <;>
          exact RustDeskContinuityState.noConfusion (hlost.symm.trans hstate)
      · rcases hstate with hstate | hstate <;>
          exact RustDeskContinuityState.noConfusion (hlost.symm.trans hstate)
  · rw [if_neg hends] at hdecision
    simp only [Bool.or_eq_true, not_or, Bool.not_eq_true, Bool.not_eq_true']
      at hends
    have hfatal : fatalEvent event = false := by
      simp [fatalEvent, hends.1, hends.2]
    have hended := hover hfatal
    have hlost : Kept (run.lost event networkGeneration) := by
      refine h.rests h.accounts h.attempts rfl rfl
        (Nat.le_trans h.window hclock) (.inl ⟨rfl, rfl⟩) rfl rfl h.cancelled
        fun hcontra => ?_
      exact Bool.noConfusion (hended.symm.trans hcontra)
    by_cases havailable : event.networkAvailable = true
    · rw [if_pos havailable] at hdecision
      have hstep : run.step (.transportEvent event) =
          (run.lost event networkGeneration).schedule
            { visibleTransportLost := true
              fastQuiesce := true } := by
        refine step_schedule [] ?_ ?_ ?_ ?_ rfl
        · rw [Decision.behind_nil]
          exact hdecision
        · exact List.not_mem_nil
        · have hwaits : (if (run.lost event
              networkGeneration).owner.retryScheduled = true then run.scheduled
              else none) = run.scheduled := h.waits
          rw [hwaits, hkept, List.append_nil]
          rfl
        · rw [hbehind, hfatal, Bool.or_false]
      rw [hstep]
      exact hlost.schedules rfl hended fun _ => rfl
    · rw [if_neg havailable] at hdecision
      have hstep : run.step (.transportEvent event) =
          run.lost event networkGeneration := by
        rw [ContinuityRun.step, hdecision]
        have hwaiting : (if run.owner.retryScheduled = true then run.scheduled
            else none) = run.scheduled := h.waits
        simp [ContinuityRun.lost, ContinuityOp.clock, ContinuityRun.booked, hkept, hbehind,
          hfatal, hwaiting]
      rw [hstep]
      exact ⟨hlost, fun _ hnetwork => absurd hnetwork havailable⟩

theorem RustDeskConnectionContinuityOwner.scheduleFirstAttempt_cancelAttempt
    (owner : RustDeskConnectionContinuityOwner) (nowMs : Nat)
    (action : RustDeskContinuityAction) :
    (owner.scheduleFirstAttempt nowMs action).action.cancelAttempt
      = action.cancelAttempt := by
  rcases owner.scheduleFirstAttempt_cases nowMs action with
    ⟨hsame, -⟩ | ⟨-, -, -, renewed, marks, -, -, hstarts⟩
  · rw [hsame]
  · rw [hstarts]

/-- A run whose network has changed, before anything is scheduled. -/
def ContinuityRun.networked (run : ContinuityRun) (networkGeneration : Nat)
    (networkAvailable : Bool) (clock : Nat) : ContinuityRun :=
  { run with
    owner :=
      { run.owner with
        networkGeneration
        networkAvailable }
    clock }

/-- A run whose attempt was cancelled by its network, before anything is
scheduled; the generation of a new network opens the window. -/
def ContinuityRun.invalidated (run : ContinuityRun) (networkGeneration : Nat)
    (networkAvailable : Bool) (clock : Nat) (changed : Bool) : ContinuityRun :=
  { owner :=
      { run.owner with
        networkGeneration
        networkAvailable
        fastQuiesced := true
        state := .TransportLost
        retryScheduled := false
        attemptInFlight := false
        nextRetryMs := 0
        attempts := if changed then 0 else run.owner.attempts
        windowStartedMs :=
          if changed then clock else run.owner.windowStartedMs }
    clock
    marks := run.marks ++
      if changed then
        [.NewGeneration run.owner.networkGeneration networkGeneration]
      else []
    starts := run.starts
    ended := run.ended }

theorem Kept.invalidates (h : Kept run) {networkGeneration clock : Nat}
    {changed : Bool} (networkAvailable : Bool) (hclock : run.clock ≤ clock)
    (hended : run.ended = false) (hchanged : changed = true →
      run.owner.networkGeneration < networkGeneration) :
    Kept (run.invalidated networkGeneration networkAvailable clock changed) := by
  have hstays : run.ended = true → false = false
      ∧ (RustDeskContinuityState.TransportLost = .Terminal
        ∨ RustDeskContinuityState.TransportLost = .ReauthRequired) := by
    intro hcontra
    exact Bool.noConfusion (hended.symm.trans hcontra)
  cases changed with
  | true =>
    have hdue : Mark.Due
        (.NewGeneration run.owner.networkGeneration networkGeneration) :=
      hchanged rfl
    obtain ⟨haccounts, hopen, hcount⟩ := h.accounts.opens
      (Mark.noConfusion : Mark.NewGeneration _ _ ≠ .Charged) hdue
    exact h.rests haccounts hopen.symm hcount rfl le_rfl (.inr ⟨rfl, rfl⟩) rfl
      rfl h.cancelled hstays
  | false =>
    have hsame : (run.invalidated networkGeneration networkAvailable clock
        false).marks = run.marks := List.append_nil _
    refine h.rests ?_ ?_ ?_ rfl (Nat.le_trans h.window hclock)
      (.inr ⟨rfl, rfl⟩) rfl rfl h.cancelled hstays
    · rw [hsame]
      exact h.accounts
    · rw [hsame]
      exact h.attempts
    · rw [ContinuityRun.charges, hsame]
      rfl

theorem step_networkChanged (h : Kept run) (hlive : Live run) {available : Bool}
    {generation : Nat} (hclock : run.clock ≤ nowMs) :
    Kept (run.step (.networkChanged available generation nowMs))
      ∧ Live (run.step (.networkChanged available generation nowMs)) := by
  by_cases hstale : run.owner.staleEvent generation = true
  · have hsilent : ContinuityOp.Stale run.owner
        (.networkChanged available generation nowMs) := hstale
    have hdecision := stale_silent hsilent
    have hkept : run.kept (.networkChanged available generation nowMs)
        = run.flying := by
      rw [ContinuityOp.decision] at hdecision
      rw [ContinuityRun.kept, hdecision]
      rfl
    rw [h.silent hdecision rfl hkept rfl]
    exact ⟨h.moved hclock _ _, hlive⟩
  have hdecision : (ContinuityOp.networkChanged available generation
      nowMs).decision run.owner
      = run.owner.onNetworkChanged available generation nowMs := by
    rw [ContinuityOp.decision]
  have hkept : run.kept (.networkChanged available generation nowMs)
      = if ((ContinuityOp.networkChanged available generation nowMs).decision
          run.owner).action.cancelAttempt then none else run.flying := by
    rw [ContinuityOp.decision, ContinuityRun.kept]
  rw [RustDeskConnectionContinuityOwner.onNetworkChanged, if_neg hstale]
    at hdecision
  have hgeneration : (decide (generation ≠ 0)
      && decide (run.owner.networkGeneration ≠ 0)
      && decide (generation > run.owner.networkGeneration)) = true →
      run.owner.networkGeneration < generation
        ∧ (if generation ≠ 0 then generation
          else run.owner.networkGeneration) = generation := by
    intro hchanged
    simp only [Bool.and_eq_true, decide_eq_true_eq] at hchanged
    exact ⟨hchanged.2, if_pos hchanged.1.1⟩
  generalize (decide (generation ≠ 0)
    && decide (run.owner.networkGeneration ≠ 0)
    && decide (generation > run.owner.networkGeneration)) = changed
    at hdecision hgeneration
  generalize (if generation ≠ 0 then generation
    else run.owner.networkGeneration) = networkGeneration
    at hdecision hgeneration
  by_cases hcancelled : run.owner.cancelled = true
  · rw [if_pos hcancelled] at hdecision
    have hflying : run.kept (.networkChanged available generation nowMs)
        = run.flying := by
      rw [hkept, hdecision]
      rfl
    rw [h.silent hdecision rfl hflying rfl]
    refine ⟨h.moved hclock _ _, fun hlost => ?_⟩
    rw [h.cancelled] at hcancelled
    rcases (h.stays hcancelled).2.2.2 with hstate | hstate
    · rcases hlost with hlost | hlost <;>
        exact RustDeskContinuityState.noConfusion (hlost.symm.trans hstate)
    · rcases hlost with hlost | hlost <;>
        exact RustDeskContinuityState.noConfusion (hlost.symm.trans hstate)
  rw [if_neg hcancelled] at hdecision
  have hended : run.ended = false := by
    rw [← h.cancelled]
    exact Bool.not_eq_true _ ▸ hcancelled
  by_cases hinvalid : (changed || decide (run.owner.networkAvailable ≠ available)
      && !available) = true
  · rw [if_pos hinvalid] at hdecision
    have hinvalidated := h.invalidates available hclock hended
      fun hchanged => (hgeneration hchanged).2.symm ▸ (hgeneration hchanged).1
    by_cases havailable : available = true
    · rw [if_pos havailable] at hdecision
      have hstep : run.step (.networkChanged available generation nowMs) =
          (run.invalidated networkGeneration available nowMs changed).schedule
            { visibleTransportLost := true
              fastQuiesce := true
              cancelAttempt := true } := by
        have hnone : run.kept (.networkChanged available generation nowMs)
            = none := by
          rw [hkept, hdecision]
          exact if_pos
            (RustDeskConnectionContinuityOwner.scheduleFirstAttempt_cancelAttempt
              _ _ _)
        have hwaits : (if (run.invalidated networkGeneration available nowMs
            changed).owner.retryScheduled = true then run.scheduled
            else none) = none := rfl
        refine step_schedule _ hdecision ?_ ?_ rfl rfl
        · cases changed with
          | true =>
            intro hmem
            cases List.mem_singleton.1 hmem
          | false => exact List.not_mem_nil
        · rw [hwaits, hnone]
          cases changed with
          | true =>
            rw [← (hgeneration rfl).2]
            rfl
          | false => rfl
      rw [hstep]
      exact hinvalidated.schedules rfl hended fun _ => rfl
    · rw [if_neg havailable] at hdecision
      have hstep : run.step (.networkChanged available generation nowMs) =
          run.invalidated networkGeneration available nowMs changed := by
        have hnone : run.kept (.networkChanged available generation nowMs)
            = none := by
          rw [hkept, hdecision]
          rfl
        rw [ContinuityRun.step, hdecision]
        cases changed with
        | true =>
          simp [ContinuityRun.invalidated, ContinuityOp.clock, hnone,
            ContinuityRun.endedBehind, (hgeneration rfl).2]
        | false =>
          simp [ContinuityRun.invalidated, ContinuityOp.clock, hnone,
            ContinuityRun.endedBehind]
      rw [hstep]
      exact ⟨hinvalidated, fun _ hnetwork => absurd hnetwork havailable⟩
  rw [if_neg hinvalid] at hdecision
  have hnetworked : Kept (run.networked networkGeneration available nowMs) :=
    h.moved hclock _ _
  have hstill : ((ContinuityOp.networkChanged available generation
      nowMs).decision run.owner).action.cancelAttempt = false →
        run.kept (.networkChanged available generation nowMs) = run.flying := by
    intro hcancel
    rw [hkept, hcancel]
    rfl
  by_cases hquiet : (!available || decide (run.owner.state ≠ .TransportLost)
      && decide (run.owner.state ≠ .RetryPending)) = true
  · rw [if_pos hquiet] at hdecision
    have hflying := hstill (by rw [hdecision])
    rw [h.silent hdecision rfl hflying rfl]
    refine ⟨hnetworked, fun hlost hnetwork => ?_⟩
    have hlost' : run.owner.state = .TransportLost
        ∨ run.owner.state = .RetryPending := hlost
    have hnetwork' : available = true := hnetwork
    rcases hlost' with hlost' | hlost' <;>
      simp [hlost', hnetwork'] at hquiet
  rw [if_neg hquiet] at hdecision
  simp only [Bool.or_eq_true, Bool.and_eq_true, Bool.not_eq_true', not_or,
    decide_eq_true_eq, not_and, not_not] at hquiet
  by_cases hbusy : (!decide (run.owner.networkAvailable ≠ available)
      && (run.owner.retryScheduled || run.owner.attemptInFlight)) = true
  · rw [if_pos hbusy] at hdecision
    have hflying := hstill (by rw [hdecision])
    rw [h.silent hdecision rfl hflying rfl]
    refine ⟨hnetworked, fun _ _ => ?_⟩
    simp only [Bool.and_eq_true, Bool.or_eq_true] at hbusy
    rcases hbusy.2 with hscheduled | hflight
    · exact .inr (.inl hscheduled)
    · exact .inl hflight
  rw [if_neg hbusy] at hdecision
  have hflying := hstill ((congrArg (·.action.cancelAttempt) hdecision).trans
    (RustDeskConnectionContinuityOwner.scheduleFirstAttempt_cancelAttempt _ _ _))
  have hstep : run.step (.networkChanged available generation nowMs) =
      (run.networked networkGeneration available nowMs).schedule {} := by
    have hwaits : (if (run.networked networkGeneration available
        nowMs).owner.retryScheduled = true then run.scheduled else none)
        = run.scheduled := h.waits
    refine step_schedule [] ?_ List.not_mem_nil ?_ rfl rfl
    · rw [Decision.behind_nil]
      exact hdecision
    · rw [hwaits, hflying, List.append_nil]
      rfl
  rw [hstep]
  -- a state that was lost has no attempt in flight but the flagged one
  refine hnetworked.schedules rfl hended fun hflight => ?_
  rcases hcharge : run.flying with _ | charge
  · exact hcharge
  · have hsome : run.flying.isSome := by rw [hcharge]; rfl
    rcases h.late hsome with hflag | ⟨hconnected, -⟩
    · exact Bool.noConfusion (hflag.symm.trans hflight)
    · have hpending := hquiet.2 (by rw [hconnected]; decide)
      exact RustDeskContinuityState.noConfusion
        (hconnected.symm.trans hpending)

-- ==================================== runs

/-- A step that is in order and fits keeps the flags and leaves nothing
behind. -/
theorem step_fitting (h : Kept run ∧ Live run) (horder : InOrder run op)
    (hfits : Fits run op) : Kept (run.step op) ∧ Live (run.step op) := by
  obtain ⟨hkept, hlive⟩ := h
  obtain ⟨hclock, -⟩ := horder
  cases op with
  | begin sessionId sessionGeneration nowMs =>
    exact step_begin hkept sessionId sessionGeneration nowMs
  | transportEvent event => exact step_transportEvent hkept hlive hclock hfits
  | networkChanged available generation nowMs =>
    exact step_networkChanged hkept hlive hclock
  | poll nowMs => exact step_poll hkept hlive hclock
  | attemptResult attempt succeeded nowMs =>
    obtain ⟨hended, hresult⟩ := hfits
    cases succeeded with
    | true => exact step_succeeded hkept hclock hended
    | false =>
      apply step_failed hkept hclock hended
      rcases hresult with hcontra | hnone | hflying
      · exact absurd hcontra Bool.false_ne_true
      · simp [ContinuityRun.kept, hnone]
      · exact if_pos hflying
  | cancel => exact step_cancel hkept

theorem kept_start (sessionId sessionGeneration nowMs : Nat) :
    Kept (.start sessionId sessionGeneration nowMs)
      ∧ Live (.start sessionId sessionGeneration nowMs) := by
  have hempty : Accounts [] [] := by
    refine ⟨?_, ?_, ?_, List.nodup_nil, ?_, ?_⟩
    · intro front hfront
      rw [List.prefix_nil.1 hfront]
      exact Nat.zero_le _
    · intro mark hmark
      cases hmark
    · intro s hs
      cases hs
    · intro s hs
      cases hs
    · intro s hs
      cases hs
  have hkept : Kept {} := by
    refine ⟨hempty, rfl, le_rfl, rfl, ?_, ?_, ?_, ?_, rfl, ?_⟩
    · intro charge hcharge
      cases hcharge
    · intro hcontra
      cases hcontra
    · intro hcontra
      cases hcontra
    · intro hcontra
      cases hcontra
    · intro hcontra
      cases hcontra
  exact step_begin hkept sessionId sessionGeneration nowMs

/-- In every run that is in order and fits, the windows hold, every attempt
starts once and alone, a session that is over stays over, and nothing that was
lost is left behind. -/
theorem continuous_fitting (sessionId sessionGeneration nowMs : Nat)
    (ops : List ContinuityOp)
    (h : Meets ContinuityRun.step (fun run op => InOrder run op ∧ Fits run op)
      (.start sessionId sessionGeneration nowMs) ops) :
    Continuous (exec ContinuityRun.step
        (.start sessionId sessionGeneration nowMs) ops)
      ∧ ∀ op : ContinuityOp,
        op.Stale (exec ContinuityRun.step
            (.start sessionId sessionGeneration nowMs) ops).owner →
          op.decision (exec ContinuityRun.step
              (.start sessionId sessionGeneration nowMs) ops).owner
            = { owner := (exec ContinuityRun.step
                (.start sessionId sessionGeneration nowMs) ops).owner } := by
  have hstep : ∀ (run : ContinuityRun) (op : ContinuityOp),
      Kept run ∧ Live run → InOrder run op ∧ Fits run op →
        Kept (run.step op) ∧ Live (run.step op) :=
    fun _ _ hrun hop => step_fitting hrun hop.1 hop.2
  obtain ⟨hkept, hlive⟩ := Meets.invariant hstep h
    (kept_start sessionId sessionGeneration nowMs)
  exact ⟨hkept.continuous hlive, fun op hstale => stale_silent hstale⟩

/-- A reset, a failure, a second attempt and its success. -/
def regainedRun : List ContinuityOp :=
  [.transportEvent { error := true, errorClass := .Reset, monotonicMs := 10 },
    .attemptResult 0 false 100, .poll 5000, .attemptResult 1 true 6000]

theorem continuous_regained :
    Continuous (exec ContinuityRun.step (.start 1 1 0) regainedRun)
      ∧ ∀ op : ContinuityOp,
        op.Stale (exec ContinuityRun.step (.start 1 1 0) regainedRun).owner →
          op.decision (exec ContinuityRun.step (.start 1 1 0)
              regainedRun).owner
            = { owner := (exec ContinuityRun.step (.start 1 1 0)
                regainedRun).owner } := by
  apply continuous_fitting
  refine ⟨⟨⟨by decide, trivial⟩, fun hended => ?_⟩,
    ⟨⟨by decide, by decide⟩, by decide, by decide⟩,
    ⟨⟨by decide, trivial⟩, trivial⟩,
    ⟨⟨by decide, by decide⟩, by decide, by decide⟩, trivial⟩
  exact absurd hended (by decide)

/-- A success that is reported behind a cancel brings the session back. -/
theorem not_continuous_cancelled :
    ¬ ∀ (sessionId sessionGeneration nowMs : Nat) (ops : List ContinuityOp),
      Meets ContinuityRun.step InOrder
        (.start sessionId sessionGeneration nowMs) ops →
        Continuous (exec ContinuityRun.step
          (.start sessionId sessionGeneration nowMs) ops) := by
  intro h
  have hrun := h 1 1 0
    [.transportEvent { error := true, errorClass := .Reset, monotonicMs := 10 },
      .cancel, .attemptResult 0 true 20]
    ⟨⟨by decide, trivial⟩, ⟨by decide, trivial⟩, ⟨by decide, by decide⟩, trivial⟩
  exact absurd (hrun.stays (by decide)) (by decide)

end RemoteDesk.RustDesk
