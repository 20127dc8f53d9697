/-
Cancel, bind, progress and finish of one transfer job, in any order.

# Locks

A lock is the section its holder is in, or nothing: two callers can not
both be inside (`statusSection`, `epochSection`). A call that finds its
lock taken waits, so its step changes nothing. The cancellation flag is
atomic and is read and written inside the sections, as in the source:
`cancel` stores it under the status lock, `bind_epoch` reads it under
the epoch lock.

# Results

`transfer_terminal`: the decision is taken once, an accepted cancel
excludes completion and reaches the bound epoch on either side of the
race, and after the decision only `bind_epoch` cancels what it is
binding. `bind_after_finish` is why the last part needs its exception.
-/
import RemoteDesk.Files.TransferJob

namespace RemoteDesk.Files

open Lib (exec EveryAt)

-- =================================== model

/-- What the holder of the status lock is doing. -/
inductive StatusSection
  /-- `cancel` found the job running. -/
  | cancelAccepted
  /-- `cancel` has set the flag and wants the epoch lock. -/
  | cancelStored
  /-- `finish` found the job running. -/
  | finishing (result : Except IoError Unit)
deriving DecidableEq, Repr

/-- What the calls on a job did. -/
inductive JobEvent
  | accepted
  | cancelReturned (wasAccepted : Bool)
  /-- `cancel_connect_epoch`, from `bind_epoch` or from `cancel`. -/
  | connectCancelled (epoch : Nat) (binding : Bool)
  | bound (epoch : Nat)
  | decided (state : TransferState)
  | finishReturned
deriving DecidableEq, Repr

/-- `TransferJob`; `clearing` is a `finish` between its two locks. -/
structure TransferJob where
  status : TransferStatus
  cancelled : Bool := false
  epoch : Nat := 0
  statusSection : Option StatusSection := none
  epochSection : Option Nat := none
  clearing : Bool := false
  log : List JobEvent := []
deriving DecidableEq, Repr

inductive JobOp
  | cancelEnter
  | cancelStore
  | cancelLeave
  | bindEnter (epoch : Nat)
  | bindLeave
  | check (env : CheckEnv)
  | progress (bytes : Nat)
  | finishEnter (result : Except IoError Unit)
  | finishDecide (env : CheckEnv)
  | finishClear
deriving DecidableEq, Repr

namespace TransferJob

/-- `TransferJob::new`. -/
def new (id size : Nat) : TransferJob :=
  { status := { transferId := id, totalBytes := size } }

/-- `check`, on its own or inside `finish`. -/
def check (s : TransferJob) (env : CheckEnv) : Except IoError Unit :=
  checkTransfer s.cancelled s.epoch env

/-- The result `finish` decides on: a good one is checked once more,
under the epoch lock. -/
def checkedResult (s : TransferJob) (env : CheckEnv) :
    Except IoError Unit → Option (Except IoError Unit)
  | .ok () => if s.epochSection = none then some (s.check env) else none
  | .error error => some (.error error)

def step (s : TransferJob) : JobOp → TransferJob
  | .cancelEnter =>
    if s.statusSection ≠ none then s
    else if s.status.state ≠ .running then
      { s with log := s.log ++ [.cancelReturned false] }
    else
      { s with
        statusSection := some .cancelAccepted
        log := s.log ++ [.accepted] }
  | .cancelStore =>
    if s.statusSection = some .cancelAccepted then
      { s with cancelled := true, statusSection := some .cancelStored }
    else s
  | .cancelLeave =>
    if s.statusSection = some .cancelStored ∧ s.epochSection = none then
      { s with
        statusSection := none
        log := s.log
          ++ (if s.epoch ≠ 0 then [.connectCancelled s.epoch false]
            else [])
          ++ [.cancelReturned true] }
    else s
  | .bindEnter epoch =>
    if s.epochSection = none then
      { s with epoch := epoch, epochSection := some epoch }
    else s
  | .bindLeave =>
    match s.epochSection with
    | none => s
    | some epoch =>
      { s with
        epochSection := none
        log := s.log
          ++ (if s.cancelled then [.connectCancelled epoch true]
            else [])
          ++ [.bound epoch] }
  | .check _ => s
  | .progress bytes =>
    if s.statusSection ≠ none then s
    else { s with status := s.status.progress bytes }
  | .finishEnter result =>
    if s.statusSection ≠ none then s
    else if s.status.state ≠ .running then
      { s with log := s.log ++ [.finishReturned] }
    else { s with statusSection := some (.finishing result) }
  | .finishDecide env =>
    match s.statusSection with
    | some (.finishing result) =>
      match s.checkedResult env result with
      | none => s
      | some checked =>
        { s with
          status := s.status.decide checked
          statusSection := none
          clearing := true
          log := s.log ++ [.decided (s.status.decide checked).state] }
    | _ => s
  | .finishClear =>
    if s.clearing = true ∧ s.epochSection = none then
      { s with
        epoch := 0
        clearing := false
        log := s.log ++ [.finishReturned] }
    else s

end TransferJob

-- =========================== specification

namespace JobEvent

/-- The epoch bound last, or zero. -/
def lastBound (log : List JobEvent) : Nat :=
  log.foldl (fun epoch event => match event with
    | .bound epoch' => epoch'
    | _ => epoch) 0

/-- An accepted cancel reaches the bound epoch: the one bound before it
returns, and each one bound after. -/
def Reaches (pre : List JobEvent) : JobEvent → Prop
  | .cancelReturned true => lastBound pre ≠ 0 →
      ∃ binding, connectCancelled (lastBound pre) binding ∈ pre
  | .bound epoch => cancelReturned true ∈ pre →
      connectCancelled epoch true ∈ pre
  | _ => True

/-- An epoch is cancelled for an accepted cancel, and after the decision
only by the `bind_epoch` that binds it. -/
def Owned (pre : List JobEvent) : JobEvent → Prop
  | .connectCancelled _ binding =>
    accepted ∈ pre ∧ ((∃ state, decided state ∈ pre) → binding = true)
  | _ => True

/-- The decision is taken once. -/
def Once (pre : List JobEvent) : JobEvent → Prop
  | .decided _ => ∀ state, decided state ∉ pre
  | _ => True

theorem lastBound_snoc (log : List JobEvent) (event : JobEvent) :
    lastBound (log ++ [event])
      = match event with
        | .bound epoch => epoch
        | _ => lastBound log := by
  unfold lastBound
  rw [List.foldl_append]
  cases event <;> rfl

end JobEvent

open JobEvent (lastBound lastBound_snoc Reaches Owned Once)

-- =============================== invariant

namespace TransferJob

/-- What holds between any two steps. -/
structure Inv (s : TransferJob) : Prop where
  undecided : s.status.state = .running ↔
    ∀ state, JobEvent.decided state ∉ s.log
  entered : s.statusSection ≠ none → s.status.state = .running
  clearing : s.clearing = true → s.status.state ≠ .running
  accepted : JobEvent.accepted ∈ s.log ↔
    s.cancelled = true ∨ s.statusSection = some .cancelAccepted
  stored : s.statusSection = some .cancelStored → s.cancelled = true
  returned : JobEvent.cancelReturned true ∈ s.log → s.cancelled = true
  excluded : s.cancelled = true → s.status.state ≠ .complete
  held : ∀ epoch, s.epochSection = some epoch → s.epoch = epoch
  bound : s.status.state = .running → s.epochSection = none →
    s.epoch = lastBound s.log
  reaches : EveryAt Reaches s.log
  owned : EveryAt Owned s.log
  once : EveryAt Once s.log

theorem inv_new (id size : Nat) : (new id size).Inv := by
  constructor
  · exact ⟨fun _ _ => nofun, fun _ => rfl⟩
  · exact fun h => absurd rfl h
  · exact nofun
  · exact ⟨nofun, fun h => h.elim nofun nofun⟩
  · exact nofun
  · exact nofun
  · exact nofun
  · exact nofun
  · exact fun _ _ => rfl
  · exact Lib.everyAt_nil _
  · exact Lib.everyAt_nil _
  · exact Lib.everyAt_nil _

variable {s : TransferJob}

/-- Membership in a log that grew by one entry. -/
private theorem mem_snoc {log : List JobEvent} {event event' : JobEvent} :
    event ∈ log ++ [event'] ↔ event ∈ log ∨ event = event' := by
  rw [List.mem_append, List.mem_singleton]

private theorem Inv.cancelEnter (h : s.Inv) :
    (s.step .cancelEnter).Inv := by
  dsimp only [TransferJob.step]
  by_cases hheld : s.statusSection ≠ none
  · rw [if_pos hheld]
    exact h
  rw [if_neg hheld]
  rw [not_not] at hheld
  by_cases hstate : s.status.state ≠ .running
  · rw [if_pos hstate]
    refine ⟨?_, h.entered, h.clearing, ?_, h.stored, ?_, h.excluded,
      h.held, ?_, ?_, ?_, ?_⟩
    · simpa [mem_snoc] using h.undecided
    · simpa [mem_snoc] using h.accepted
    · simpa [mem_snoc] using h.returned
    · exact fun hrunning => absurd hrunning hstate
    · exact Lib.everyAt_snoc.mpr ⟨h.reaches, trivial⟩
    · exact Lib.everyAt_snoc.mpr ⟨h.owned, trivial⟩
    · exact Lib.everyAt_snoc.mpr ⟨h.once, trivial⟩
  · rw [if_neg hstate]
    rw [not_not] at hstate
    refine ⟨?_, fun _ => hstate, h.clearing, ?_, nofun, ?_, h.excluded,
      h.held, ?_, ?_, ?_, ?_⟩
    · simpa [mem_snoc] using h.undecided
    · simp
    · simpa [mem_snoc] using h.returned
    · intro hrunning hfree
      rw [lastBound_snoc]
      exact h.bound hrunning hfree
    · exact Lib.everyAt_snoc.mpr ⟨h.reaches, trivial⟩
    · exact Lib.everyAt_snoc.mpr ⟨h.owned, trivial⟩
    · exact Lib.everyAt_snoc.mpr ⟨h.once, trivial⟩

private theorem Inv.cancelStore (h : s.Inv) :
    (s.step .cancelStore).Inv := by
  dsimp only [TransferJob.step]
  by_cases hsection : s.statusSection = some .cancelAccepted
  · rw [if_pos hsection]
    have hrunning := h.entered (by rw [hsection]; exact nofun)
    refine ⟨h.undecided, fun _ => hrunning, h.clearing, ?_, fun _ => rfl,
      fun _ => rfl, ?_, h.held, h.bound, h.reaches, h.owned, h.once⟩
    · exact ⟨fun _ => .inl rfl, fun _ => h.accepted.mpr (.inr hsection)⟩
    · intro _
      rw [hrunning]
      exact nofun
  · rw [if_neg hsection]
    exact h

private theorem Inv.cancelLeave (h : s.Inv) :
    (s.step .cancelLeave).Inv := by
  dsimp only [TransferJob.step]
  by_cases hsection : s.statusSection = some .cancelStored
      ∧ s.epochSection = none
  · rw [if_pos hsection]
    obtain ⟨hsection, hfree⟩ := hsection
    have hrunning := h.entered (by rw [hsection]; exact nofun)
    have hcancelled := h.stored hsection
    have haccepted : JobEvent.accepted ∈ s.log :=
      h.accepted.mpr (.inl hcancelled)
    have hundecided := h.undecided.mp hrunning
    have hbound := h.bound hrunning hfree
    by_cases hepoch : s.epoch ≠ 0
    · rw [if_pos hepoch]
      refine ⟨?_, nofun, h.clearing, ?_, nofun, fun _ => hcancelled,
        h.excluded, h.held, ?_, ?_, ?_, ?_⟩
      · simpa [mem_snoc] using h.undecided
      · simp [haccepted, hcancelled]
      · intro _ _
        rw [lastBound_snoc, lastBound_snoc]
        exact hbound
      · refine Lib.everyAt_snoc.mpr ⟨Lib.everyAt_snoc.mpr
          ⟨h.reaches, trivial⟩, fun _ => ⟨false, ?_⟩⟩
        rw [lastBound_snoc]
        dsimp only
        rw [← hbound]
        exact mem_snoc.mpr (.inr rfl)
      · refine Lib.everyAt_snoc.mpr ⟨Lib.everyAt_snoc.mpr
          ⟨h.owned, haccepted, ?_⟩, trivial⟩
        rintro ⟨state, hdecided⟩
        exact absurd hdecided (hundecided state)
      · exact Lib.everyAt_snoc.mpr ⟨Lib.everyAt_snoc.mpr
          ⟨h.once, trivial⟩, trivial⟩
    · rw [if_neg hepoch, List.append_nil]
      rw [not_not] at hepoch
      refine ⟨?_, nofun, h.clearing, ?_, nofun, fun _ => hcancelled,
        h.excluded, h.held, ?_, ?_, ?_, ?_⟩
      · simpa [mem_snoc] using h.undecided
      · simp [haccepted, hcancelled]
      · intro _ _
        rw [lastBound_snoc]
        exact hbound
      · refine Lib.everyAt_snoc.mpr ⟨h.reaches, fun hne => ?_⟩
        exact absurd (hbound.symm.trans hepoch) hne
      · exact Lib.everyAt_snoc.mpr ⟨h.owned, trivial⟩
      · exact Lib.everyAt_snoc.mpr ⟨h.once, trivial⟩
  · rw [if_neg hsection]
    exact h

private theorem Inv.bindLeave (h : s.Inv) : (s.step .bindLeave).Inv := by
  dsimp only [TransferJob.step]
  cases hsection : s.epochSection with
  | none => exact h
  | some epoch =>
    have hepoch := h.held epoch hsection
    dsimp only
    by_cases hcancelled : s.cancelled = true
    · rw [if_pos hcancelled]
      have haccepted : JobEvent.accepted ∈ s.log :=
        h.accepted.mpr (.inl hcancelled)
      refine ⟨?_, h.entered, h.clearing, ?_, h.stored,
        fun _ => hcancelled, h.excluded, nofun, ?_, ?_, ?_, ?_⟩
      · simpa [mem_snoc] using h.undecided
      · simpa [mem_snoc] using h.accepted
      · intro _ _
        rw [lastBound_snoc]
        exact hepoch
      · exact Lib.everyAt_snoc.mpr ⟨Lib.everyAt_snoc.mpr
          ⟨h.reaches, trivial⟩, fun _ => mem_snoc.mpr (.inr rfl)⟩
      · exact Lib.everyAt_snoc.mpr ⟨Lib.everyAt_snoc.mpr
          ⟨h.owned, haccepted, fun _ => rfl⟩, trivial⟩
      · exact Lib.everyAt_snoc.mpr ⟨Lib.everyAt_snoc.mpr
          ⟨h.once, trivial⟩, trivial⟩
    · rw [if_neg hcancelled, List.append_nil]
      refine ⟨?_, h.entered, h.clearing, ?_, h.stored, ?_, h.excluded,
        nofun, ?_, ?_, ?_, ?_⟩
      · simpa [mem_snoc] using h.undecided
      · simpa [mem_snoc] using h.accepted
      · simpa [mem_snoc] using h.returned
      · intro _ _
        rw [lastBound_snoc]
        exact hepoch
      · exact Lib.everyAt_snoc.mpr ⟨h.reaches, fun hreturned =>
          absurd (h.returned hreturned) hcancelled⟩
      · exact Lib.everyAt_snoc.mpr ⟨h.owned, trivial⟩
      · exact Lib.everyAt_snoc.mpr ⟨h.once, trivial⟩

/-- Progress moves the byte count of a running job only. -/
@[simp] theorem progress_state (status : TransferStatus) (bytes : Nat) :
    (status.progress bytes).state = status.state := by
  unfold TransferStatus.progress
  split <;> rfl

private theorem Inv.progress (h : s.Inv) (bytes : Nat) :
    (s.step (.progress bytes)).Inv := by
  dsimp only [TransferJob.step]
  by_cases hheld : s.statusSection ≠ none
  · rw [if_pos hheld]
    exact h
  · rw [if_neg hheld]
    have hstate := progress_state s.status bytes
    refine ⟨?_, ?_, ?_, h.accepted, h.stored, h.returned, ?_, h.held, ?_,
      h.reaches, h.owned, h.once⟩
    all_goals dsimp only; rw [hstate]
    · exact h.undecided
    · exact h.entered
    · exact h.clearing
    · exact h.excluded
    · exact h.bound

private theorem Inv.finishEnter (h : s.Inv)
    (result : Except IoError Unit) :
    (s.step (.finishEnter result)).Inv := by
  dsimp only [TransferJob.step]
  by_cases hheld : s.statusSection ≠ none
  · rw [if_pos hheld]
    exact h
  rw [if_neg hheld]
  rw [not_not] at hheld
  by_cases hstate : s.status.state ≠ .running
  · rw [if_pos hstate]
    refine ⟨?_, h.entered, h.clearing, ?_, h.stored, ?_, h.excluded,
      h.held, ?_, ?_, ?_, ?_⟩
    · simpa [mem_snoc] using h.undecided
    · simpa [mem_snoc] using h.accepted
    · simpa [mem_snoc] using h.returned
    · exact fun hrunning => absurd hrunning hstate
    · exact Lib.everyAt_snoc.mpr ⟨h.reaches, trivial⟩
    · exact Lib.everyAt_snoc.mpr ⟨h.owned, trivial⟩
    · exact Lib.everyAt_snoc.mpr ⟨h.once, trivial⟩
  · rw [if_neg hstate]
    rw [not_not] at hstate
    refine ⟨h.undecided, fun _ => hstate, h.clearing, ?_, nofun,
      h.returned, h.excluded, h.held, h.bound, h.reaches, h.owned,
      h.once⟩
    have haccepted := h.accepted
    rw [hheld] at haccepted
    simpa using haccepted

/-- A cancelled job does not complete. -/
theorem decide_cancelled {result checked : Except IoError Unit}
    {env : CheckEnv} (hcancelled : s.cancelled = true)
    (h : s.checkedResult env result = some checked) :
    (s.status.decide checked).state ≠ .complete := by
  have herror : ∃ error, checked = .error error := by
    unfold checkedResult at h
    cases result with
    | error error => exact ⟨error, (Option.some.inj h).symm⟩
    | ok u =>
      dsimp only at h
      split at h
      · obtain ⟨error, herror⟩ := checkTransfer_cancelled s.epoch env
        unfold check at h
        rw [hcancelled, herror] at h
        exact ⟨error, (Option.some.inj h).symm⟩
      · cases h
  obtain ⟨error, rfl⟩ := herror
  unfold TransferStatus.decide
  dsimp only
  split
  · exact nofun
  · exact nofun

/-- The decision leaves the running state. -/
theorem decide_terminal (status : TransferStatus)
    (checked : Except IoError Unit) :
    (status.decide checked).state ≠ .running := by
  unfold TransferStatus.decide
  split
  · exact nofun
  · dsimp only
    split
    · exact nofun
    · exact nofun

private theorem Inv.finishDecide (h : s.Inv) (env : CheckEnv) :
    (s.step (.finishDecide env)).Inv := by
  dsimp only [TransferJob.step]
  split
  · rename_i result hsection
    split
    · exact h
    · rename_i checked hchecked
      have hrunning := h.entered (by rw [hsection]; exact nofun)
      have hterminal := decide_terminal s.status checked
      refine ⟨?_, nofun, fun _ => hterminal, ?_, nofun, ?_, ?_, h.held,
        fun hr => absurd hr hterminal, ?_, ?_, ?_⟩
      · refine ⟨fun hr => absurd hr hterminal, fun hnone => ?_⟩
        exact absurd (mem_snoc.mpr (.inr rfl)) (hnone _)
      · have haccepted := h.accepted
        rw [hsection] at haccepted
        simpa [mem_snoc] using haccepted
      · simpa [mem_snoc] using h.returned
      · exact fun hcancelled => decide_cancelled hcancelled hchecked
      · exact Lib.everyAt_snoc.mpr ⟨h.reaches, trivial⟩
      · exact Lib.everyAt_snoc.mpr ⟨h.owned, trivial⟩
      · exact Lib.everyAt_snoc.mpr ⟨h.once, h.undecided.mp hrunning⟩
  · exact h

private theorem Inv.finishClear (h : s.Inv) :
    (s.step .finishClear).Inv := by
  dsimp only [TransferJob.step]
  by_cases hclear : s.clearing = true ∧ s.epochSection = none
  · rw [if_pos hclear]
    have hterminal := h.clearing hclear.1
    refine ⟨?_, h.entered, nofun, ?_, h.stored, ?_, h.excluded, ?_,
      fun hr => absurd hr hterminal, ?_, ?_, ?_⟩
    · simpa [mem_snoc] using h.undecided
    · simpa [mem_snoc] using h.accepted
    · simpa [mem_snoc] using h.returned
    · rw [hclear.2]
      exact nofun
    · exact Lib.everyAt_snoc.mpr ⟨h.reaches, trivial⟩
    · exact Lib.everyAt_snoc.mpr ⟨h.owned, trivial⟩
    · exact Lib.everyAt_snoc.mpr ⟨h.once, trivial⟩
  · rw [if_neg hclear]
    exact h

theorem Inv.step (h : s.Inv) (op : JobOp) : (s.step op).Inv := by
  cases op with
  | cancelEnter => exact h.cancelEnter
  | cancelStore => exact h.cancelStore
  | cancelLeave => exact h.cancelLeave
  | bindEnter epoch =>
    dsimp only [TransferJob.step]
    split
    · refine ⟨h.undecided, h.entered, h.clearing, h.accepted, h.stored,
        h.returned, h.excluded, ?_, nofun, h.reaches, h.owned, h.once⟩
      rintro _ ⟨⟩
      rfl
    · exact h
  | bindLeave => exact h.bindLeave
  | check env => exact h
  | progress bytes => exact h.progress bytes
  | finishEnter result => exact h.finishEnter result
  | finishDecide env => exact h.finishDecide env
  | finishClear => exact h.finishClear

-- ==================================== runs

/-- The job after a run. -/
def reached (id size : Nat) (ops : List JobOp) : TransferJob :=
  exec TransferJob.step (new id size) ops

theorem inv_reached (id size : Nat) (ops : List JobOp) :
    (reached id size ops).Inv := by
  have hstep : ∀ (s : TransferJob) op, s.Inv → (s.step op).Inv :=
    fun _ op h => h.step op
  exact Lib.exec_invariant hstep ops (inv_new id size)

/-- A terminal status is final. -/
theorem Inv.terminal (h : s.Inv) (hterminal : s.status.state ≠ .running)
    (op : JobOp) : (s.step op).status = s.status := by
  have hfree : s.statusSection = none := by
    by_contra hheld
    exact hterminal (h.entered hheld)
  cases op with
  | cancelEnter =>
    dsimp only [TransferJob.step]
    rw [hfree, if_neg (fun hne => hne rfl), if_pos hterminal]
  | cancelStore =>
    dsimp only [TransferJob.step]
    rw [hfree, if_neg nofun]
  | cancelLeave =>
    dsimp only [TransferJob.step]
    rw [hfree, if_neg (fun hne => nomatch hne.1)]
  | bindEnter epoch =>
    dsimp only [TransferJob.step]
    split <;> rfl
  | bindLeave =>
    dsimp only [TransferJob.step]
    split <;> rfl
  | check env => rfl
  | progress bytes =>
    dsimp only [TransferJob.step]
    rw [hfree, if_neg (fun hne => hne rfl)]
    unfold TransferStatus.progress
    rw [if_neg hterminal]
  | finishEnter result =>
    dsimp only [TransferJob.step]
    rw [hfree, if_neg (fun hne => hne rfl), if_pos hterminal]
  | finishDecide env =>
    dsimp only [TransferJob.step]
    rw [hfree]
  | finishClear =>
    dsimp only [TransferJob.step]
    split <;> rfl

/-- In every run of the calls on one job: a terminal status is final and
the decision is taken once; an accepted cancel excludes completion; it
cancels the epoch that is bound when it returns and every epoch bound
later; and an epoch is cancelled only for an accepted cancel, after the
decision only by the `bind_epoch` that binds it. -/
theorem transfer_terminal (id size : Nat) (ops : List JobOp) :
    ((reached id size ops).status.state ≠ .running → ∀ more,
      (reached id size (ops ++ more)).status
        = (reached id size ops).status)
    ∧ EveryAt Once (reached id size ops).log
    ∧ (JobEvent.accepted ∈ (reached id size ops).log →
      (reached id size ops).status.state ≠ .complete)
    ∧ EveryAt Reaches (reached id size ops).log
    ∧ EveryAt Owned (reached id size ops).log := by
  have hinv := inv_reached id size ops
  refine ⟨?_, hinv.once, ?_, hinv.reaches, hinv.owned⟩
  · intro hterminal more
    unfold reached
    rw [Lib.exec_append]
    have hstep : ∀ (t : TransferJob) op,
        t.Inv ∧ t.status = (reached id size ops).status →
        (t.step op).Inv
          ∧ (t.step op).status = (reached id size ops).status := by
      rintro t op ⟨ht, hsame⟩
      refine ⟨ht.step op, ?_⟩
      rw [ht.terminal (by rw [hsame]; exact hterminal) op, hsame]
    exact (Lib.exec_invariant hstep more ⟨hinv, rfl⟩).2
  · intro haccepted
    rcases hinv.accepted.mp haccepted with hcancelled | hsection
    · exact hinv.excluded hcancelled
    · rw [hinv.entered (by rw [hsection]; exact nofun)]
      exact nofun

/-- A cancel, then the late result, then more of either: the status
stays what the decision made it. -/
theorem transfer_terminal_cancelled :
    (reached 7 0 ([.cancelEnter, .cancelStore, .cancelLeave,
        .finishEnter (.ok ()), .finishDecide {}]
      ++ [.finishClear, .cancelEnter, .finishEnter (.ok ())])).status
      = { state := .cancelled, transferId := 7, totalBytes := 0
          diagnosticCode := 1
          text := "file_transfer:Interrupted" } :=
  ((transfer_terminal 7 0 [.cancelEnter, .cancelStore, .cancelLeave,
    .finishEnter (.ok ()), .finishDecide {}]).1 (by decide)
    [.finishClear, .cancelEnter, .finishEnter (.ok ())]).trans
    (by decide)

/-- A job is cancelled and finished; `bind_epoch` then cancels the epoch
it is given. -/
theorem bind_after_finish :
    ¬ ∀ id size ops, EveryAt (fun pre event => ∀ epoch binding,
      event = JobEvent.connectCancelled epoch binding →
        JobEvent.finishReturned ∉ pre) (reached id size ops).log := by
  intro h
  exact h 7 0 [.cancelEnter, .cancelStore, .cancelLeave,
    .finishEnter (.ok ()), .finishDecide {}, .finishClear, .bindEnter 9,
    .bindLeave]
    [.accepted, .cancelReturned true, .decided .cancelled,
      .finishReturned]
    (.connectCancelled 9 true) [.bound 9] (by decide) 9 true rfl
    (by decide)

end TransferJob

end RemoteDesk.Files
