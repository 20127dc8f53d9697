/-
What the streaming writer's queue owes its callers, over whole runs.

A run interleaves the two enqueue functions, `take_next` and the closing
of the writer, without a failing write. `QueueTrace` records what was
accepted and what was taken; `Sound` is what holds after every run:
controls come out once each in order, acks are counted exactly, an ack
is not kept waiting for more than a burst of controls, and the writer
does not end early.

The fairness counter is a real count: `controls_since_ack` is the number
of controls taken since the last ack (up to saturation), whether or not
an ack was pending, which is what bounds every burst (`burst_le`).
-/
import RemoteDesk.Crypto.WriterQueue
import RemoteDesk.Lib.Runs

namespace RemoteDesk.Crypto

open Wire Lib

-- =================================== trace

/-- One write taken: what it is, and whether an ack was pending. -/
structure Taken where
  queued : QueuedWrite
  isAck : Bool
  ackPending : Bool
  deriving DecidableEq, Repr

/-- The queue, and the record of its run. -/
structure QueueTrace where
  state : StreamingWriterState := {}
  accepted : List QueuedWrite := []
  acks : Nat := 0
  taken : List Taken := []
  deriving DecidableEq, Repr

/-- One turn of one of the calls. -/
inductive QueueOp
  | enqueueControl (plaintext : Bytes) (receipt : Option Receipt)
      (pending stillPending : Bool)
  | enqueueAck (plaintext : Bytes)
  | takeNext
  | close
  deriving DecidableEq, Repr

namespace QueueTrace

/-- A write that took the queue to `state` was an ack when the pending
count went down. -/
def recordTaken (t : QueueTrace) (queued : QueuedWrite)
    (state : StreamingWriterState) : QueueTrace :=
  { t with
    state
    taken := t.taken ++
      [{ queued
         isAck := decide (state.pendingAcks < t.state.pendingAcks)
         ackPending := decide (0 < t.state.pendingAcks) }] }

def step (t : QueueTrace) : QueueOp → QueueTrace
  | .enqueueControl plaintext receipt pending stillPending =>
    match t.state.enqueueControl plaintext receipt pending
        stillPending with
    | .accepted state =>
      { t with
        state
        accepted := t.accepted ++
          [{ bytes := plaintext, publication := receipt }] }
    | .refused _ | .wait => t
  | .enqueueAck plaintext =>
    match t.state.enqueueAck plaintext with
    | (.ok (), state) => { t with state, acks := t.acks + 1 }
    | (.error _, state) => { t with state }
  | .takeNext =>
    match t.state.takeNext with
    | .write queued state => t.recordTaken queued state
    | .stop | .wait => t
  | .close => { t with state := t.state.close }

def takenControls (t : QueueTrace) : List QueuedWrite :=
  (t.taken.filter (!·.isAck)).map (·.queued)

def takenAcks (t : QueueTrace) : Nat :=
  (t.taken.filter (·.isAck)).length

/-- What every run without a failing write guarantees. -/
structure Sound (t : QueueTrace) : Prop where
  /-- Controls are taken once each, in the order they were accepted. -/
  controls : t.takenControls ++ t.state.control = t.accepted
  /-- Every accepted ack is taken or still counted. -/
  acks : t.takenAcks + t.state.pendingAcks = t.acks
  /-- A queue with nothing to take has handed out everything. -/
  drained : (t.state.takeNext = .wait ∨ t.state.takeNext = .stop) →
    t.takenControls = t.accepted ∧ t.takenAcks = t.acks
  /-- A pending count comes with a payload. -/
  payload : 0 < t.state.pendingAcks → t.state.ackPayload.isSome = true
  /-- A burst of controls taken while an ack waits is bounded. -/
  fair : ∀ pre burst post, t.taken = pre ++ burst ++ post →
    (∀ entry ∈ burst, entry.isAck = false ∧ entry.ackPending = true) →
    burst.length ≤ ackAfterControls

end QueueTrace

-- ========================== the inversions

namespace StreamingWriterState

variable {s s' : StreamingWriterState} {queued : QueuedWrite}

/-- A pending count comes with a payload. -/
def AckStored (s : StreamingWriterState) : Prop :=
  0 < s.pendingAcks → s.ackPayload.isSome = true

/-- What taking an ack does. -/
def TookAck (s s' : StreamingWriterState) : Prop :=
  0 < s.pendingAcks ∧ s'.pendingAcks + 1 = s.pendingAcks
    ∧ s'.control = s.control ∧ s'.controlsSinceAck = 0
    ∧ s'.error = s.error ∧ s'.AckStored

/-- What taking a control does: it is the oldest, and no ack is due. -/
def TookControl (s : StreamingWriterState) (queued : QueuedWrite)
    (s' : StreamingWriterState) : Prop :=
  s.control = queued :: s'.control
    ∧ (0 < s.pendingAcks → s.controlsSinceAck < ackAfterControls)
    ∧ s' = { s with
        control := s'.control
        controlsSinceAck := min counterMax (s.controlsSinceAck + 1) }

theorem takeAckOrStop_write (h : s.takeAckOrStop = .write queued s') :
    s.TookAck s' := by
  unfold takeAckOrStop takeAck at h
  by_cases hpending : s.pendingAcks = 0
  · rw [if_pos hpending] at h; cases h
  · rw [if_neg hpending] at h
    cases hpayload : s.ackPayload with
    | none => rw [hpayload] at h; cases h
    | some payload =>
      rw [hpayload] at h
      cases h
      refine ⟨by omega, Nat.sub_add_cancel (by omega), rfl, rfl, rfl,
        fun hleft => ?_⟩
      dsimp only at hleft ⊢
      rw [if_neg (by omega)]
      rfl

theorem takeAckOrStop_ne_stop (hs : s.AckStored)
    (hpending : 0 < s.pendingAcks) : s.takeAckOrStop ≠ .stop := by
  obtain ⟨payload, hpayload⟩ := Option.isSome_iff_exists.mp (hs hpending)
  unfold takeAckOrStop takeAck
  rw [if_neg (by omega), hpayload]
  intro h
  cases h

/-- A write is an ack or the oldest control. -/
theorem takeNext_write (h : s.takeNext = .write queued s') :
    s.TookAck s' ∨ s.TookControl queued s' := by
  unfold takeNext at h
  by_cases hdue : 0 < s.pendingAcks
      ∧ ackAfterControls ≤ s.controlsSinceAck
  · rw [if_pos hdue] at h
    exact Or.inl (takeAckOrStop_write h)
  · rw [if_neg hdue] at h
    cases hcontrol : s.control with
    | nil =>
      rw [hcontrol] at h
      dsimp only at h
      split at h
      · exact Or.inl (takeAckOrStop_write h)
      · split at h <;> cases h
    | cons first rest =>
      rw [hcontrol] at h
      cases h
      exact Or.inr ⟨hcontrol, fun hpending => Nat.not_le.mp
        fun hle => hdue ⟨hpending, hle⟩, rfl⟩

/-- The writer waits or ends only when nothing is pending. -/
theorem takeNext_idle (hs : s.AckStored)
    (h : s.takeNext = .wait ∨ s.takeNext = .stop) :
    s.control = [] ∧ s.pendingAcks = 0 := by
  have hwait : s.takeAckOrStop ≠ .wait := by
    unfold takeAckOrStop
    split <;> exact fun h => by cases h
  have hnot : 0 < s.pendingAcks → ¬ (s.takeAckOrStop = .wait
      ∨ s.takeAckOrStop = .stop) := fun hpending h =>
    h.elim hwait (takeAckOrStop_ne_stop hs hpending)
  unfold takeNext at h
  by_cases hdue : 0 < s.pendingAcks
      ∧ ackAfterControls ≤ s.controlsSinceAck
  · rw [if_pos hdue] at h
    exact absurd h (hnot hdue.1)
  · rw [if_neg hdue] at h
    cases hcontrol : s.control with
    | cons first rest =>
      rw [hcontrol] at h
      rcases h with h | h <;> cases h
    | nil =>
      rw [hcontrol] at h
      dsimp only at h
      refine ⟨rfl, Nat.eq_zero_of_not_pos fun hpending => ?_⟩
      rw [if_pos hpending] at h
      exact hnot hpending h

/-- An accepted control is appended. -/
theorem enqueueControl_accepted {plaintext : Bytes}
    {receipt : Option Receipt} {pending stillPending : Bool}
    (h : s.enqueueControl plaintext receipt pending stillPending
      = .accepted s') :
    s' = { s with control := s.control ++
      [{ bytes := plaintext, publication := receipt }] } := by
  unfold enqueueControl at h
  split at h
  · cases h
  · split at h
    · cases h
    · split at h
      · cases h
      · split at h
        · split at h <;> cases h
          rfl
        · cases h

/-- An ack counts exactly when it is accepted, and refreshes the stored
payload at most. -/
theorem enqueueAck_cases (s : StreamingWriterState) (plaintext : Bytes) :
    (∃ e, (s.enqueueAck plaintext).1 = .error e
      ∧ ((s.enqueueAck plaintext).2 = s
        ∨ (s.enqueueAck plaintext).2
          = { s with ackPayload := some plaintext }))
    ∨ ((s.enqueueAck plaintext).1 = .ok ()
      ∧ (s.enqueueAck plaintext).2 = { s with
          ackPayload := some plaintext
          pendingAcks := s.pendingAcks + 1 }) := by
  unfold enqueueAck
  split
  · exact Or.inl ⟨_, rfl, Or.inl rfl⟩
  · split
    · exact Or.inl ⟨_, rfl, Or.inl rfl⟩
    · dsimp only
      split
      · exact Or.inr ⟨rfl, rfl⟩
      · exact Or.inl ⟨_, rfl, Or.inr rfl⟩

end StreamingWriterState

-- =========================== the invariant

namespace QueueTrace

/-- The controls taken since the last ack. -/
def sinceAck (taken : List Taken) : Nat :=
  (taken.reverse.takeWhile (!·.isAck)).length

theorem sinceAck_snoc (taken : List Taken) (entry : Taken) :
    sinceAck (taken ++ [entry])
      = if entry.isAck then 0 else sinceAck taken + 1 := by
  unfold sinceAck
  rw [List.reverse_append, List.reverse_singleton, List.singleton_append,
    List.takeWhile_cons]
  cases entry.isAck <;> simp

/-- Controls at the end of the record all count. -/
theorem length_le_sinceAck (pre : List Taken) {burst : List Taken}
    (h : ∀ entry ∈ burst, entry.isAck = false) :
    burst.length ≤ sinceAck (pre ++ burst) := by
  induction burst using List.reverseRecOn with
  | nil => exact Nat.zero_le _
  | append_singleton burst entry ih =>
    have := ih fun e he => h e (List.mem_append_left _ he)
    rw [← List.append_assoc, sinceAck_snoc, h entry (by simp)]
    simpa using this

/-- A control was taken while an ack waited only below the burst. -/
def BelowBurst (pre : List Taken) (entry : Taken) : Prop :=
  entry.isAck = false → entry.ackPending = true →
    sinceAck pre < ackAfterControls

theorem burst_le {taken : List Taken} (h : EveryAt BelowBurst taken)
    (pre burst post : List Taken) (htaken : taken = pre ++ burst ++ post)
    (hburst : ∀ entry ∈ burst,
      entry.isAck = false ∧ entry.ackPending = true) :
    burst.length ≤ ackAfterControls := by
  rcases List.eq_nil_or_concat burst with rfl | ⟨init, last, rfl⟩
  · exact Nat.zero_le _
  · obtain ⟨hack, hpending⟩ := hburst last (by simp)
    have hlast := h (pre ++ init) last post (by simpa using htaken)
      hack hpending
    have hinit := length_le_sinceAck pre fun e (he : e ∈ init) =>
      (hburst e (by simp [he])).1
    rw [List.concat_eq_append, List.length_append, List.length_singleton]
    omega

structure QueueInv (t : QueueTrace) : Prop where
  controls : t.takenControls ++ t.state.control = t.accepted
  acks : t.takenAcks + t.state.pendingAcks = t.acks
  stored : t.state.AckStored
  counted : t.state.controlsSinceAck = min counterMax (sinceAck t.taken)
  below : EveryAt BelowBurst t.taken
  noError : t.state.error = none

theorem queueInv_start : QueueInv {} where
  controls := rfl
  acks := rfl
  stored := fun h => absurd h (Nat.lt_irrefl 0)
  counted := rfl
  below := everyAt_nil _
  noError := rfl

variable {t : QueueTrace}

theorem takenControls_snoc (taken : List Taken) (entry : Taken) :
    (((taken ++ [entry]).filter (!·.isAck)).map (·.queued))
      = ((taken.filter (!·.isAck)).map (·.queued))
        ++ (if entry.isAck then [] else [entry.queued]) := by
  rw [List.filter_append, List.map_append]
  cases h : entry.isAck <;> simp [h]

theorem takenAcks_snoc (taken : List Taken) (entry : Taken) :
    ((taken ++ [entry]).filter (·.isAck)).length
      = (taken.filter (·.isAck)).length
        + (if entry.isAck then 1 else 0) := by
  rw [List.filter_append, List.length_append]
  cases h : entry.isAck <;> simp [h]

/-- Taking an ack: the count moves from pending to taken, and the burst
starts over. -/
private theorem QueueInv.tookAck (h : t.QueueInv) {queued : QueuedWrite}
    {s' : StreamingWriterState} (hs : t.state.TookAck s') :
    (t.recordTaken queued s').QueueInv := by
  obtain ⟨hpending, hcount, hcontrol, hsince, herror, hstored⟩ := hs
  have hack : decide (s'.pendingAcks < t.state.pendingAcks) = true :=
    decide_eq_true (by omega)
  refine ⟨?_, ?_, hstored, ?_, ?_, herror.trans h.noError⟩
  · have := h.controls
    unfold recordTaken takenControls at *
    dsimp only at *
    rw [takenControls_snoc, hack, if_pos rfl, List.append_nil, hcontrol]
    exact this
  · have := h.acks
    unfold recordTaken takenAcks at *
    dsimp only at *
    rw [takenAcks_snoc, hack, if_pos rfl]
    omega
  · unfold recordTaken
    dsimp only
    rw [sinceAck_snoc, hack, if_pos rfl, hsince, Nat.min_zero]
  · refine everyAt_snoc.mpr ⟨h.below, fun hnot => ?_⟩
    rw [hack] at hnot
    cases hnot

/-- Taking a control: it is the next one due, and the burst grows by
one. -/
private theorem QueueInv.tookControl (h : t.QueueInv)
    {queued : QueuedWrite} {s' : StreamingWriterState}
    (hs : t.state.TookControl queued s') :
    (t.recordTaken queued s').QueueInv := by
  obtain ⟨hcontrol, hbelow, heq⟩ := hs
  have hpending : s'.pendingAcks = t.state.pendingAcks := by rw [heq]
  have hsince : s'.controlsSinceAck
      = min counterMax (t.state.controlsSinceAck + 1) := by rw [heq]
  have hack : decide (s'.pendingAcks < t.state.pendingAcks) = false :=
    decide_eq_false (by omega)
  refine ⟨?_, ?_, ?_, ?_, ?_, ?_⟩
  · have := h.controls
    unfold recordTaken takenControls at *
    dsimp only at *
    rw [takenControls_snoc, hack, if_neg Bool.false_ne_true,
      List.append_assoc, List.singleton_append, ← hcontrol]
    exact this
  · have := h.acks
    unfold recordTaken takenAcks at *
    dsimp only at *
    rw [takenAcks_snoc, hack, if_neg Bool.false_ne_true]
    omega
  · show s'.AckStored
    rw [heq]
    exact h.stored
  · unfold recordTaken
    dsimp only
    rw [sinceAck_snoc, hack, if_neg Bool.false_ne_true, hsince, h.counted]
    omega
  · refine everyAt_snoc.mpr ⟨h.below, fun _ hwait => ?_⟩
    have := hbelow (of_decide_eq_true hwait)
    rw [h.counted] at this
    unfold ackAfterControls counterMax at *
    omega
  · show s'.error = none
    rw [heq]
    exact h.noError

theorem QueueInv.step (h : t.QueueInv) (op : QueueOp) :
    (t.step op).QueueInv := by
  cases op with
  | enqueueControl plaintext receipt pending stillPending =>
    unfold QueueTrace.step
    dsimp only
    cases he : t.state.enqueueControl plaintext receipt pending
        stillPending with
    | refused error => exact h
    | wait => exact h
    | accepted s' =>
      have hs' := StreamingWriterState.enqueueControl_accepted he
      subst hs'
      refine { h with controls := ?_ }
      have := h.controls
      unfold takenControls at *
      dsimp only
      rw [← List.append_assoc, this]
  | enqueueAck plaintext =>
    unfold QueueTrace.step
    dsimp only
    rcases StreamingWriterState.enqueueAck_cases t.state plaintext with
      ⟨e, hres, hs | hs⟩ | ⟨hres, hs⟩
    · rw [← Prod.mk.eta (p := t.state.enqueueAck plaintext), hres, hs]
      exact h
    · rw [← Prod.mk.eta (p := t.state.enqueueAck plaintext), hres, hs]
      exact { h with stored := fun _ => rfl }
    · rw [← Prod.mk.eta (p := t.state.enqueueAck plaintext), hres, hs]
      refine { h with acks := ?_, stored := fun _ => rfl }
      have := h.acks
      unfold takenAcks at *
      dsimp only
      omega
  | takeNext =>
    unfold QueueTrace.step
    dsimp only
    cases ht : t.state.takeNext with
    | stop => exact h
    | wait => exact h
    | write queued s' =>
      rcases StreamingWriterState.takeNext_write ht with hs | hs
      · exact h.tookAck hs
      · exact h.tookControl hs
  | close => exact { h with }

theorem QueueInv.sound (h : t.QueueInv) : t.Sound where
  controls := h.controls
  acks := h.acks
  drained := by
    intro hidle
    obtain ⟨hcontrol, hpending⟩ :=
      StreamingWriterState.takeNext_idle h.stored hidle
    have hcontrols := h.controls
    have hacks := h.acks
    rw [hcontrol, List.append_nil] at hcontrols
    exact ⟨hcontrols, by omega⟩
  payload := h.stored
  fair := burst_le h.below

end QueueTrace

-- ============================== the result

/-- Every run of the queue without a failing write is sound. -/
theorem writer_queue_sound (ops : List QueueOp) :
    (exec QueueTrace.step {} ops).Sound :=
  (exec_invariant (fun _ op h => h.step op) ops
    QueueTrace.queueInv_start).sound

end RemoteDesk.Crypto
