/-
Permission changes and phone gating, under every interleaving.

# What a revocation leaves

`Denies` is the invariant: a permission withdrawn and not granted since
is not enabled; a permission revoked is also known, nothing that waits
needs it, and no `enqueue` under the state lock has loaded masks that
would let it through. The last holds because an `enqueue` loads both
masks under the lock the discard needs: what it loaded before the
discard, it has also queued before the discard. Each lemma of the first
half is one access of one call; `Denies.step` puts them together.

# What a closed gate leaves

`Fences` is the invariant of the epoch: a batch carries an epoch no
later than the present one, and an earlier one once the gate has closed
behind it.

`revocation` is both, over every run.
-/
import RemoteDesk.Inbox.SharedInbox
import RemoteDesk.Inbox.Drain

namespace RemoteDesk.Inbox

open Lib

-- ============================== statements

namespace GateEvent

/-- The messages an event accepts or hands out. -/
def messages : GateEvent → List ControlMsg
  | accepted message => [message]
  | handed batch => batch
  | fenced _ batch => batch
  | _ => []

def Carries (event : GateEvent) (permission : Permission) : Prop :=
  ∃ m ∈ event.messages, requiredPermission m = some permission

end GateEvent

/-- No grant of the permission, alone or with others. -/
def Ungranted (permission : Permission) (log : List GateEvent) : Prop :=
  ∀ mask, .granted mask ∈ log → mask &&& permission = 0

/-- A call of `update_permission` took the permission back, and nothing
has granted it since. -/
def Withdrawn (call : Nat) (permission : Permission)
    (log : List GateEvent) : Prop :=
  ∃ before since, log = before ++ .withdrawn call permission :: since
    ∧ Ungranted permission since

/-- … and that call has returned. -/
def Revoked (permission : Permission) (log : List GateEvent) : Prop :=
  ∃ call before between since,
    log = before ++ .withdrawn call permission
        :: (between ++ .revoked call permission :: since)
      ∧ Ungranted permission (between ++ since)

/-- A batch of this epoch was taken before the gate closed or the epoch
moved on. -/
def Stale (epoch : Nat) (log : List GateEvent) : Prop :=
  ∃ before batch since, log = before ++ .fenced epoch batch :: since
    ∧ (.closed ∈ since ∨ .moved ∈ since)

variable {p : Permission} {h : EnqueueSection} {s : SharedInbox}

theorem ungranted_append {log log' : List GateEvent} :
    Ungranted p (log ++ log') ↔ Ungranted p log ∧ Ungranted p log' := by
  constructor
  · intro h
    exact ⟨fun mask hm => h mask (List.mem_append_left _ hm),
      fun mask hm => h mask (List.mem_append_right _ hm)⟩
  · intro h mask hm
    rcases List.mem_append.mp hm with hm | hm
    · exact h.1 mask hm
    · exact h.2 mask hm

section Histories

variable {call : Nat} {log : List GateEvent} {event : GateEvent}

theorem withdrawn_snoc (h : Withdrawn call p (log ++ [event])) :
    event = .withdrawn call p
      ∨ Withdrawn call p log ∧ Ungranted p [event] := by
  obtain ⟨before, since, hlog, hfree⟩ := h
  rcases snoc_eq_append_cons hlog with ⟨-, heq, -⟩ | ⟨since', rfl, hlog'⟩
  · exact Or.inl heq.symm
  · rw [ungranted_append] at hfree
    exact Or.inr ⟨⟨before, since', hlog', hfree.1⟩, hfree.2⟩

theorem revoked_snoc (h : Revoked p (log ++ [event])) :
    (∃ call, event = .revoked call p ∧ Withdrawn call p log)
      ∨ Revoked p log ∧ Ungranted p [event] := by
  obtain ⟨call, before, between, since, hlog, hfree⟩ := h
  have hlog' : log ++ [event] = (before ++ .withdrawn call p :: between)
      ++ .revoked call p :: since := by simpa using hlog
  rcases snoc_eq_append_cons hlog' with ⟨rfl, heq, hlog''⟩ | ⟨since', rfl, hlog''⟩
  · left
    rw [List.append_nil] at hfree
    exact ⟨call, heq.symm, before, between, hlog''.symm, hfree⟩
  · right
    rw [← List.append_assoc, ungranted_append] at hfree
    exact ⟨⟨call, before, between, since', by simpa using hlog'', hfree.1⟩,
      hfree.2⟩

/-- A permission that has been revoked is withdrawn. -/
theorem Revoked.withdrawn (h : Revoked p log) :
    ∃ call, Withdrawn call p log ∧ .revoked call p ∈ log := by
  obtain ⟨call, before, between, since, rfl, hfree⟩ := h
  refine ⟨call, ⟨before, _, rfl, ?_⟩, by simp⟩
  rw [ungranted_append] at hfree
  intro mask hm
  rcases List.mem_append.mp hm with hm | hm
  · exact hfree.1 mask hm
  · exact hfree.2 mask (List.mem_of_ne_of_mem (by simp) hm)

end Histories

-- ============================== the queues

theorem requiredPermission_shape (m : ControlMsg) :
    requiredPermission m.shape = requiredPermission m := by
  cases m <;> rfl

/-- Nothing that waits needs the permission. -/
def Free (p : Permission) (q : Queues) : Prop :=
  ∀ e ∈ q.entries, requiredPermission e.message ≠ some p

/-- The display switch slot, the one `discard_permission_controls` does
not look at, needs no permission. -/
def SwitchFree (q : Queues) : Prop :=
  ∀ e ∈ q.displaySwitch, requiredPermission e.message = none

section Queues

variable {s s' : ControlInboxState} {m : ControlMsg} {accepted : Bool}

private theorem shutdown_queues :
    (s.enqueue .shutdown).1.queues = { s.queues with
      reliable := s.queues.reliable ++ s.queues.flushed
        ++ [⟨s.nextSequence, .shutdown⟩]
      touchUpdate := none
      mouseWheel2D := none } := by
  show (ControlInboxState.enqueueOther
    { s with nextSequence := s.afterSequence } _ _).queues = _
  unfold ControlInboxState.enqueueOther
  rw [ControlInboxState.queues_enqueueReliable,
    ControlInboxState.queues_flushCoalesced]
  rfl

/-- What waits after an enqueue waited before it, or needs what the
message needs. -/
theorem enqueue_waiting (h : s.enqueue m = (s', accepted))
    {e : SequencedControl} (he : e ∈ s'.queues.entries) :
    requiredPermission e.message = requiredPermission m
      ∨ ∃ old ∈ s.queues.entries,
          requiredPermission e.message = requiredPermission old.message := by
  by_cases hm : m = .shutdown
  · subst hm
    have hs : s' = (s.enqueue .shutdown).1 := by rw [h]
    rw [hs, shutdown_queues, Queues.mem_entries] at he
    simp only [List.mem_append, Queues.mem_flushed, List.mem_singleton,
      Queues.touchEntries, Queues.wheelEntries] at he
    by_cases hnew : e = ⟨s.nextSequence, .shutdown⟩
    · rw [hnew]; exact Or.inl rfl
    · refine Or.inr ⟨e, Queues.mem_entries.mpr ?_, rfl⟩
      simp only [hnew, or_false, Option.elim_none, List.not_mem_nil,
        Option.toList_none, List.map_nil, false_or] at he
      simp only [Queues.touchEntries, Queues.wheelEntries]
      tauto
  · cases accepted with
    | false =>
      rw [(ControlInboxState.enqueue_rejected h).1] at he
      exact Or.inr ⟨e, he, rfl⟩
    | true =>
      have henq := (ControlInboxState.enqueue_accepted hm h).1
      rcases henq.mem_entries he with hold | ⟨-, hshape | ⟨-, old, ho, hs⟩⟩
      · exact Or.inr ⟨e, hold, rfl⟩
      · left
        rw [← requiredPermission_shape, ← hshape,
          requiredPermission_shape]
      · refine Or.inr ⟨old, Queues.mem_entries.mpr ?_, ?_⟩
        · exact Or.inr (Or.inr (Or.inl ho))
        · rw [← requiredPermission_shape, ← hs, requiredPermission_shape]

theorem Free.enqueue (h : Free p s.queues)
    (hm : requiredPermission m ≠ some p)
    (henq : s.enqueue m = (s', accepted)) : Free p s'.queues := by
  intro e he
  rcases enqueue_waiting henq he with heq | ⟨old, ho, heq⟩
  · rwa [heq]
  · rw [heq]; exact h old ho

theorem SwitchFree.enqueue (h : SwitchFree s.queues)
    (henq : s.enqueue m = (s', accepted)) : SwitchFree s'.queues := by
  by_cases hm : m = .shutdown
  · subst hm
    have hs : s' = (s.enqueue .shutdown).1 := by rw [henq]
    rw [hs, shutdown_queues]
    exact h
  · cases accepted with
    | false =>
      rw [(ControlInboxState.enqueue_rejected henq).1]
      exact h
    | true =>
      have hstep := (ControlInboxState.enqueue_accepted hm henq).1
      generalize s'.queues = q' at hstep
      cases hstep with
      | switch hs =>
        intro e he
        cases he
        cases m <;> first | rfl | cases hs
      | _ => exact h

theorem queues_discardPermissionControls :
    (s.discardPermissionControls p).queues =
      { reliable := s.reliable.filter fun queued =>
          requiredPermission queued.message != some p
        mouseMove := if s.mouseMove.any fun queued =>
            requiredPermission queued.message == some p
          then none else s.mouseMove
        touchUpdate :=
          if p = permissionKeyboard then none else s.touchUpdate
        mouseWheel2D :=
          if p = permissionKeyboard then none else s.mouseWheel2D
        displaySwitch := s.displaySwitch } := by
  unfold ControlInboxState.discardPermissionControls
  by_cases hp : p = permissionKeyboard
  · rw [if_pos hp, if_pos hp, if_pos hp]; rfl
  · rw [if_neg hp, if_neg hp, if_neg hp]; rfl

/-- What is left after a discard waited before, and it does not need the
permission unless the display switch does. -/
theorem discard_waiting {e : SequencedControl}
    (he : e ∈ (s.discardPermissionControls p).queues.entries) :
    e ∈ s.queues.entries
      ∧ (requiredPermission e.message ≠ some p
        ∨ s.displaySwitch = some e) := by
  have hmove : ∀ x, (if s.mouseMove.any fun queued =>
      requiredPermission queued.message == some p
        then none else s.mouseMove) = some x →
      s.mouseMove = some x ∧ requiredPermission x.message ≠ some p := by
    intro x hx
    split at hx
    · cases hx
    · rename_i hany
      refine ⟨hx, fun hp => hany ?_⟩
      rw [hx]
      simpa using hp
  have hreliable : ∀ x ∈ s.reliable.filter fun queued =>
      requiredPermission queued.message != some p,
      x ∈ s.reliable ∧ requiredPermission x.message ≠ some p := by
    intro x hx
    rw [List.mem_filter] at hx
    exact ⟨hx.1, by simpa using hx.2⟩
  have hslots : p ≠ permissionKeyboard →
      (e ∈ s.queues.touchEntries ∨ e ∈ s.queues.wheelEntries) →
      requiredPermission e.message ≠ some p := by
    intro hp hslot heq
    have hkind : requiredPermission e.message = some permissionKeyboard := by
      rcases hslot with hslot | hslot
      · cases hq : s.touchUpdate with
        | none =>
          simp [Queues.touchEntries, ControlInboxState.queues, hq] at hslot
        | some pending =>
          simp only [Queues.touchEntries, ControlInboxState.queues, hq,
            Option.elim_some, PendingTouchUpdate.entries,
            List.mem_append, List.mem_map] at hslot
          rcases hslot with ⟨_, -, rfl⟩ | ⟨_, -, rfl⟩ <;> rfl
      · simp only [Queues.wheelEntries, List.mem_map] at hslot
        obtain ⟨_, -, rfl⟩ := hslot
        rfl
    rw [hkind] at heq
    exact hp (Option.some.inj heq).symm
  rw [queues_discardPermissionControls] at he
  rw [Queues.mem_entries] at he ⊢
  by_cases hp : p = permissionKeyboard
  · simp only [if_pos hp] at he
    rcases he with h | h | h | h | h
    · exact ⟨Or.inl (hreliable e h).1, Or.inl (hreliable e h).2⟩
    · exact ⟨Or.inr (Or.inl (hmove e h).1), Or.inl (hmove e h).2⟩
    · cases h
    · cases h
    · exact ⟨Or.inr (Or.inr (Or.inr (Or.inr h))), Or.inr h⟩
  · simp only [if_neg hp] at he
    rcases he with h | h | h | h | h
    · exact ⟨Or.inl (hreliable e h).1, Or.inl (hreliable e h).2⟩
    · exact ⟨Or.inr (Or.inl (hmove e h).1), Or.inl (hmove e h).2⟩
    · exact ⟨Or.inr (Or.inr (Or.inl h)), Or.inl (hslots hp (Or.inl h))⟩
    · exact ⟨Or.inr (Or.inr (Or.inr (Or.inl h))),
        Or.inl (hslots hp (Or.inr h))⟩
    · exact ⟨Or.inr (Or.inr (Or.inr (Or.inr h))), Or.inr h⟩

theorem discard_free (h : SwitchFree s.queues) :
    Free p (s.discardPermissionControls p).queues := by
  intro e he
  rcases (discard_waiting he).2 with hp | hs
  · exact hp
  · rw [h e hs]
    simp

theorem Free.discard {q : Permission} (h : Free q s.queues) :
    Free q (s.discardPermissionControls p).queues :=
  fun e he => h e (discard_waiting he).1

theorem SwitchFree.discard (h : SwitchFree s.queues) :
    SwitchFree (s.discardPermissionControls p).queues := by
  rw [queues_discardPermissionControls]
  exact h

/-- A batch and what it leaves, against what waited before it. -/
private def Within (q : Queues) (s : ControlInboxState)
    (batch : List Delivery) : Prop :=
  (∀ e ∈ s.queues.entries, e ∈ q.entries)
    ∧ (∀ e ∈ s.queues.displaySwitch, e ∈ q.displaySwitch)
    ∧ ∀ d ∈ batch, requiredPermission d.message = none
        ∨ ∃ e ∈ q.entries, d.message = e.message

private theorem drainKeeps_within (q : Queues) :
    ControlInboxState.DrainKeeps (Within q) where
  pop := by
    intro s log room out s' h hp
    have hpop := (ControlInboxState.popOrdered_popped hp).1
    refine ⟨fun e he => h.1 e (hpop.mem_entries he), fun e he => ?_, ?_⟩
    · apply h.2.1
      generalize s'.queues = q' at hpop he
      cases hpop with
      | switch => cases he
      | _ => exact he
    · intro d hd
      rcases List.mem_append.mp hd with hd | hd
      · exact h.2.2 d hd
      · obtain ⟨e, he, rfl⟩ := hpop.mem_out hd
        exact Or.inr ⟨e, h.1 e he, rfl⟩
  refresh := by
    intro s log h
    refine ⟨h.1, h.2.1, fun d hd => ?_⟩
    rcases List.mem_append.mp hd with hd | hd
    · exact h.2.2 d hd
    · rw [List.mem_singleton.mp hd]; exact Or.inl rfl
  pressure := by
    intro s log level h
    refine ⟨h.1, h.2.1, fun d hd => ?_⟩
    rcases List.mem_append.mp hd with hd | hd
    · exact h.2.2 d hd
    · rw [List.mem_singleton.mp hd]; exact Or.inl rfl
  full := fun s log hits h => h

/-- What a `take_batch` hands out and leaves waited before it. -/
theorem takeBatch_within (s : ControlInboxState) (limit : Nat) :
    Within s.queues (s.takeBatchSequenced limit).2
      (s.takeBatchSequenced limit).1 :=
  (drainKeeps_within s.queues).takeBatch limit
    ⟨fun _ h => h, fun _ h => h, fun _ h => absurd h List.not_mem_nil⟩

end Queues

-- =============================== the masks

section Masks

variable {known enabled mask : Permission}

theorem and_or_eq_self (h : known &&& p = p) :
    (known ||| mask) &&& p = p := by
  ext i hi
  have hbit := congrArg (·[i]) h
  simp only [BitVec.getElem_and, BitVec.getElem_or] at hbit ⊢
  grind

theorem or_self_and : (known ||| p) &&& p = p := by
  ext i hi
  simp only [BitVec.getElem_and, BitVec.getElem_or]
  grind

theorem and_or_eq_zero (h : enabled &&& p = 0) (hm : mask &&& p = 0) :
    (enabled ||| mask) &&& p = 0 := by
  rw [BitVec.and_or_distrib_right, h, hm, BitVec.or_self]

theorem and_not_and_eq_zero (h : enabled &&& p = 0) :
    (enabled &&& ~~~mask) &&& p = 0 := by
  rw [BitVec.and_assoc, BitVec.and_comm (~~~mask), ← BitVec.and_assoc, h]
  simp

theorem and_not_self_and : (enabled &&& ~~~p) &&& p = 0 := by
  rw [BitVec.and_assoc, BitVec.and_comm (~~~p), BitVec.and_not_self]
  simp

end Masks

-- ============================== permission

/-- The masks an `enqueue` has loaded deny the permission, as far as it
has loaded them. -/
def Loads (p : Permission) : EnqueuePoint → Prop
  | .locked => True
  | .known mask => mask &&& p = p
  | .both known enabled => known &&& p = p ∧ enabled &&& p = 0

/-- The invariant of the permissions; see the header. -/
structure Denies (state : ControlInboxState) (known enabled : Permission)
    (held : Option EnqueueSection) (updates : List PermissionUpdate)
    (log : List GateEvent) : Prop where
  switch : SwitchFree state.queues
  update : ∀ u ∈ updates, u.permission ≠ 0
    ∧ (u.point ≠ .written → known &&& u.permission = u.permission)
  withdrawn : ∀ call p, Withdrawn call p log → enabled &&& p = 0
  returned : ∀ call p, .revoked call p ∈ log → p ≠ 0 ∧ known &&& p = p
  free : ∀ p, Revoked p log → Free p state.queues
  loads : ∀ p, Revoked p log → ∀ h ∈ held, Loads p h.point
  past : EveryAt (fun pre event => ∀ p, Revoked p pre → ¬ event.Carries p)
    log

/-- The two entries that a log of permissions reads. -/
def GateEvent.IsPermission : GateEvent → Prop
  | granted _ | withdrawn .. | revoked .. => True
  | _ => False

namespace Denies

variable {state : ControlInboxState} {known enabled : Permission}
  {held : Option EnqueueSection} {updates : List PermissionUpdate}
  {log : List GateEvent} {event : GateEvent}

/-- Any entry but a grant, a withdrawal or a return leaves the history of
the permissions alone. -/
theorem note (h : Denies state known enabled held updates log)
    (hevent : ¬ event.IsPermission)
    (hcarries : ∀ p, Revoked p log → ¬ event.Carries p) :
    Denies state known enabled held updates (log ++ [event]) := by
  have hrevoked : ∀ p, Revoked p (log ++ [event]) → Revoked p log := by
    intro p hp
    rcases revoked_snoc hp with ⟨call, rfl, -⟩ | hp
    · exact absurd trivial hevent
    · exact hp.1
  refine ⟨h.switch, h.update, ?_, ?_, fun p hp => h.free p (hrevoked p hp),
    fun p hp => h.loads p (hrevoked p hp),
    everyAt_snoc.mpr ⟨h.past, hcarries⟩⟩
  · intro call p hp
    rcases withdrawn_snoc hp with rfl | hp
    · exact absurd trivial hevent
    · exact h.withdrawn call p hp.1
  · intro call p hp
    rcases List.mem_append.mp hp with hp | hp
    · exact h.returned call p hp
    · rw [← List.mem_singleton.mp hp] at hevent
      exact absurd trivial hevent

theorem note_silent (h : Denies state known enabled held updates log)
    (hevent : ¬ event.IsPermission) (hsilent : event.messages = []) :
    Denies state known enabled held updates (log ++ [event]) := by
  refine h.note hevent ?_
  rintro p - ⟨m, hm, -⟩
  rw [hsilent] at hm
  cases hm

/-- The queues change under the state lock. -/
theorem queues {state' : ControlInboxState}
    (h : Denies state known enabled held updates log)
    (hswitch : SwitchFree state'.queues)
    (hfree : ∀ p, Revoked p log → Free p state'.queues) :
    Denies state' known enabled held updates log :=
  ⟨hswitch, h.update, h.withdrawn, h.returned, hfree, h.loads, h.past⟩

/-- The holder of the state lock changes. -/
theorem hold {held' : Option EnqueueSection}
    (h : Denies state known enabled held updates log)
    (hloads : ∀ p, Revoked p log → ∀ x ∈ held', Loads p x.point) :
    Denies state known enabled held' updates log :=
  ⟨h.switch, h.update, h.withdrawn, h.returned, h.free, hloads, h.past⟩

/-- A permission that has been revoked is known and not enabled. -/
theorem masks (h : Denies state known enabled held updates log)
    (hp : Revoked p log) : p ≠ 0 ∧ known &&& p = p ∧ enabled &&& p = 0 := by
  obtain ⟨call, hw, hr⟩ := hp.withdrawn
  exact ⟨(h.returned call p hr).1, (h.returned call p hr).2,
    h.withdrawn call p hw⟩

theorem discard (h : Denies state known enabled held updates log)
    (p : Permission) : Denies (state.discardPermissionControls p) known
      enabled held updates log :=
  h.queues h.switch.discard fun q hq => (h.free q hq).discard

/-- A `take_batch` hands out only what waited. -/
theorem take (h : Denies state known enabled held updates log)
    (limit : Nat)
    (hmessages : event.messages
      = (state.takeBatchSequenced limit).1.map (·.message))
    (hevent : ¬ event.IsPermission) :
    Denies (state.takeBatchSequenced limit).2 known enabled held updates
      (log ++ [event]) := by
  obtain ⟨hentries, hswitch, hbatch⟩ := takeBatch_within state limit
  refine note ?_ hevent ?_
  · refine h.queues (fun e he => h.switch e (hswitch e he)) ?_
    exact fun p hp e he => h.free p hp e (hentries e he)
  · rintro p hp ⟨m, hm, hneed⟩
    rw [hmessages, List.mem_map] at hm
    obtain ⟨d, hd, rfl⟩ := hm
    rcases hbatch d hd with hnone | ⟨e, he, heq⟩
    · rw [hnone] at hneed
      cases hneed
    · rw [heq] at hneed
      exact h.free p hp e he hneed

/-- An accepted message, which no revoked permission covers. -/
theorem enqueue {m : ControlMsg} {state' : ControlInboxState}
    {accepted : Bool} (h : Denies state known enabled held updates log)
    (hneed : ∀ p, Revoked p log → requiredPermission m ≠ some p)
    (henq : state.enqueue m = (state', accepted)) :
    Denies state' known enabled none updates
      (if accepted then log ++ [.accepted m] else log) := by
  have hqueues : Denies state' known enabled none updates log :=
    (h.queues (h.switch.enqueue henq) fun p hp =>
      (h.free p hp).enqueue (hneed p hp) henq).hold
        fun _ _ _ hx => by cases hx
  cases accepted with
  | false => exact hqueues
  | true =>
    refine hqueues.note (fun hp => hp) ?_
    rintro p hp ⟨m', hm', heq⟩
    cases List.mem_singleton.mp hm'
    exact hneed p hp heq

/-- The enabled mask changes: by a grant or by a withdrawal, logged. -/
theorem write {enabled' : Permission} {update : PermissionUpdate}
    (h : Denies state known enabled held updates log)
    (hupdate : update.permission ≠ 0 ∧ update.point = .written)
    (hreturn : ∀ call p, event ≠ .revoked call p)
    (hcarries : ∀ p, ¬ event.Carries p)
    (hmask : ∀ call p, Withdrawn call p (log ++ [event]) →
      enabled' &&& p = 0) :
    Denies state known enabled' held (updates ++ [update])
      (log ++ [event]) := by
  have hrevoked : ∀ p, Revoked p (log ++ [event]) → Revoked p log := by
    intro p hp
    rcases revoked_snoc hp with ⟨call, heq, -⟩ | hp
    · exact absurd heq (hreturn call p)
    · exact hp.1
  refine ⟨h.switch, ?_, hmask, ?_, fun p hp => h.free p (hrevoked p hp),
    fun p hp => h.loads p (hrevoked p hp),
    everyAt_snoc.mpr ⟨h.past, fun p _ => hcarries p⟩⟩
  · intro u hu
    rcases List.mem_append.mp hu with hu | hu
    · exact h.update u hu
    · rw [List.mem_singleton.mp hu]
      exact ⟨hupdate.1, fun hpoint => absurd hupdate.2 hpoint⟩
  · intro call p hp
    rcases List.mem_append.mp hp with hp | hp
    · exact h.returned call p hp
    · exact absurd (List.mem_singleton.mp hp).symm (hreturn call p)

theorem grant (h : Denies state known enabled held updates log) (hp : p ≠ 0) :
    Denies state known (enabled ||| p) held
      (updates ++ [{ permission := p, enabled := true }])
      (log ++ [.granted p]) := by
  refine h.write ⟨hp, rfl⟩ (fun _ _ heq => by cases heq) ?_ ?_
  · rintro q ⟨m, hm, -⟩
    cases hm
  · intro call q hq
    rcases withdrawn_snoc hq with heq | ⟨hq, hfree⟩
    · cases heq
    · exact and_or_eq_zero (h.withdrawn call q hq) (hfree p (by simp))

theorem withdraw (h : Denies state known enabled held updates log) (call : Nat)
    (hp : p ≠ 0) :
    Denies state known (enabled &&& ~~~p) held
      (updates ++ [{ permission := p, enabled := false }])
      (log ++ [.withdrawn call p]) := by
  refine h.write ⟨hp, rfl⟩ (fun _ _ heq => by cases heq) ?_ ?_
  · rintro q ⟨m, hm, -⟩
    cases hm
  · intro call' q hq
    rcases withdrawn_snoc hq with heq | ⟨hq, -⟩
    · cases heq
      exact and_not_self_and
    · exact and_not_and_eq_zero (h.withdrawn call' q hq)

/-- The permission becomes known. -/
theorem know {call : Nat} {u : PermissionUpdate} (point : UpdatePoint)
    (h : Denies state known enabled held updates log)
    (hu : updates[call]? = some u) :
    Denies state (known ||| u.permission) enabled held
      (updates.set call { u with point }) log := by
  refine ⟨h.switch, ?_, h.withdrawn, ?_, h.free, h.loads, h.past⟩
  · intro v hv
    rcases List.mem_or_eq_of_mem_set hv with hv | rfl
    · refine ⟨(h.update v hv).1, fun hpoint => ?_⟩
      exact and_or_eq_self ((h.update v hv).2 hpoint)
    · exact ⟨(h.update u (List.mem_of_getElem? hu)).1,
        fun _ => or_self_and⟩
  · intro call' p hp
    exact ⟨(h.returned call' p hp).1,
      and_or_eq_self (h.returned call' p hp).2⟩

/-- A revocation returns: nobody holds the state lock, and nothing that
waits needs the permission. -/
theorem revoke {call : Nat} {u : PermissionUpdate}
    (h : Denies state known enabled none updates log)
    (hu : updates[call]? = some u) (hpoint : u.point = .known) :
    Denies (state.discardPermissionControls u.permission) known enabled
      none (updates.set call { u with point := .returned })
      (log ++ [.revoked call u.permission]) := by
  obtain ⟨hne, hknown⟩ := h.update u (List.mem_of_getElem? hu)
  have hknown : known &&& u.permission = u.permission :=
    hknown (by rw [hpoint]; exact fun heq => by cases heq)
  refine ⟨h.switch.discard, ?_, ?_, ?_, ?_, ?_,
    everyAt_snoc.mpr ⟨h.past, ?_⟩⟩
  · intro v hv
    rcases List.mem_or_eq_of_mem_set hv with hv | rfl
    · exact h.update v hv
    · exact ⟨hne, fun _ => hknown⟩
  · intro call' p hp
    rcases withdrawn_snoc hp with heq | ⟨hp, -⟩
    · cases heq
    · exact h.withdrawn call' p hp
  · intro call' p hp
    rcases List.mem_append.mp hp with hp | hp
    · exact h.returned call' p hp
    · cases List.mem_singleton.mp hp
      exact ⟨hne, hknown⟩
  · intro p hp
    rcases revoked_snoc hp with ⟨call', heq, -⟩ | ⟨hp, -⟩
    · cases heq
      exact discard_free h.switch
    · exact (h.free p hp).discard
  · intro p _ x hx
    cases hx
  · rintro p - ⟨m, hm, -⟩
    cases hm

end Denies

/-- The invariant, of the shared inbox. -/
def SharedInbox.Denies (s : SharedInbox) : Prop :=
  Inbox.Denies s.inbox.state s.inbox.permissionKnown
    s.inbox.permissionEnabled s.stateSection s.updates s.log

/-- A message the decision lets through is covered by no revocation. -/
theorem uncovered {m : ControlMsg} {point : EnqueuePoint}
    {known enabled q : Permission} (hne : p ≠ 0) (hloads : Loads p point)
    (hpoint : point = .both known enabled) (hq : requiredPermission m = some q)
    (hpass : SharedInbox.deniedBy known enabled q = false) :
    requiredPermission m ≠ some p := by
  subst hpoint
  intro hp
  rw [hq] at hp
  cases hp
  obtain ⟨hknown, henabled⟩ := hloads
  unfold SharedInbox.deniedBy at hpass
  rw [hknown, henabled] at hpass
  exact hne (by simpa using hpass)

theorem SharedInbox.commit_denies (hs : s.Denies)
    (hneed : ∀ p, Revoked p s.log →
      requiredPermission h.message ≠ some p) : (s.commit h).Denies := by
  unfold SharedInbox.commit
  cases henq : s.inbox.state.enqueue h.message with
  | mk state accepted =>
    have hcommit := Inbox.Denies.enqueue hs hneed henq
    cases accepted <;> exact hcommit

theorem SharedInbox.take_denies (hs : s.Denies) (limit : Nat)
    {event : List ControlMsg → GateEvent}
    (hmessages : ∀ batch, (event batch).messages = batch)
    (hevent : ∀ batch, ¬ (event batch).IsPermission) :
    (s.take limit event).Denies :=
  Inbox.Denies.take hs limit (hmessages _) (hevent _)

/-- One access of one call keeps the invariant. -/
theorem SharedInbox.step_denies (hs : s.Denies)
    (op : GateOp) : (s.step op).Denies := by
  unfold SharedInbox.step
  cases op with
  | enqueueEnter m =>
    dsimp only
    split
    · rename_i hm
      refine Inbox.Denies.note hs (fun hp => hp) ?_
      rintro p - ⟨m', hm', hneed⟩
      rw [List.mem_singleton.mp hm', hm] at hneed
      cases hneed
    · split
      · exact hs
      · split
        · exact hs
        · split <;> exact hs
  | enqueueLock caller =>
    dsimp only
    split
    · exact hs
    · split
      · exact hs
      · refine Inbox.Denies.hold hs ?_
        intro p hp x hx
        cases hx
        trivial
  | enqueueLockGated =>
    dsimp only
    split
    · split
      · exact hs
      · refine Inbox.Denies.hold hs ?_
        intro p hp x hx
        cases hx
        trivial
    · exact hs
  | enqueueLoad =>
    dsimp only
    split
    · exact hs
    · rename_i held hheld
      split
      · refine Inbox.Denies.hold hs ?_
        intro p hp x hx
        cases hx
        exact (Inbox.Denies.masks hs hp).2.1
      · rename_i mask hpoint
        refine Inbox.Denies.hold hs ?_
        intro p hp x hx
        cases hx
        have hloaded := Inbox.Denies.loads hs p hp held hheld
        rw [hpoint] at hloaded
        exact ⟨hloaded, (Inbox.Denies.masks hs hp).2.2⟩
      · exact hs
  | enqueueDecide =>
    dsimp only
    split
    · exact hs
    · rename_i held hheld
      split
      · rename_i hnone
        refine commit_denies hs fun p _ hp => ?_
        rw [hnone] at hp
        cases hp
      · rename_i q known enabled hq hpoint
        split
        · refine Inbox.Denies.hold hs ?_
          intro p hp x hx
          cases hx
        · rename_i hpass
          refine commit_denies hs fun p hp => ?_
          exact uncovered (Inbox.Denies.masks hs hp).1
            (Inbox.Denies.loads hs p hp held hheld) hpoint hq
            (by simpa using hpass)
      · exact hs
  | takeBatch limit =>
    dsimp only
    split
    · exact hs
    · exact take_denies hs limit (fun _ => rfl) fun _ hp => hp
  | fencedEnter limit =>
    dsimp only
    split
    · exact hs
    · split <;> exact hs
  | unfencedTake caller =>
    dsimp only
    split
    · exact hs
    · split
      · exact hs
      · refine take_denies ?_ _ (fun _ => rfl) fun _ hp => hp
        exact hs
  | fencedEpoch =>
    dsimp only
    split <;> exact hs
  | fencedTake =>
    dsimp only
    split
    · split
      · exact hs
      · refine take_denies ?_ _ (fun _ => rfl) fun _ hp => hp
        exact hs
    · exact hs
  | updateWrite p enabled =>
    dsimp only
    split
    · exact hs
    · rename_i hp
      cases enabled with
      | true => exact Inbox.Denies.grant hs hp
      | false => exact Inbox.Denies.withdraw hs _ hp
  | updateKnown call =>
    dsimp only
    split
    · rename_i update hupdate
      split
      · exact Inbox.Denies.know _ hs hupdate
      · exact hs
    · exact hs
  | updateDiscard call =>
    dsimp only
    split
    · rename_i update hupdate
      split
      · rename_i hready
        unfold SharedInbox.Denies at hs
        rw [hready.2] at hs
        have hreturn := hs.revoke hupdate hready.1
        unfold SharedInbox.Denies
        show Inbox.Denies _ _ _ s.stateSection _ _
        rw [hready.2]
        exact hreturn
      · exact hs
    · exact hs
  | readyStore ready => exact hs
  | readySet caller =>
    dsimp only
    split
    · exact hs
    · split
      · exact hs
      · split
        · exact hs
        · exact Inbox.Denies.note_silent hs (fun hp => hp) rfl
  | readyMove =>
    dsimp only
    split
    · exact Inbox.Denies.note_silent hs (fun hp => hp) rfl
    · exact hs
  | readyPurge =>
    dsimp only
    split
    · exact Inbox.Denies.discard hs permissionKeyboard
    · exact hs
  | checkEnter epoch =>
    dsimp only
    split <;> exact hs
  | checkRead =>
    dsimp only
    split
    · exact Inbox.Denies.note_silent hs (fun hp => hp) rfl
    · exact hs

-- =================================== epoch

/-- The invariant of the epoch; see the header. An `enqueue` that came in
under its lease still holds the gate. -/
structure Fences (gate : Option GateSection)
    (held : Option EnqueueSection) (epoch : Nat) (log : List GateEvent) :
    Prop where
  leased : ∀ h ∈ held, h.gated = true → ∃ m, gate = some (.enqueuing m)
  reading : ∀ limit e, gate = some (.fencing limit (some e)) → e ≤ epoch
  behind : ∀ before e batch since,
    log = before ++ .fenced e batch :: since →
    e ≤ epoch ∧ (.moved ∈ since ∨ .closed ∈ since
      ∧ gate ≠ some .closing → e < epoch)
  past : EveryAt (fun pre event => ∀ e current,
    event = .checked e current → Stale e pre → current = false) log

/-- The entries that say something of the gate. -/
def GateEvent.IsPhone : GateEvent → Prop
  | fenced .. | closed | moved | checked .. => True
  | _ => False

namespace Fences

variable {gate gate' : Option GateSection}
  {held held' : Option EnqueueSection} {epoch : Nat}
  {log : List GateEvent} {event : GateEvent}

/-- The gate and the state lock change hands, away from a close. -/
theorem hand (h : Fences gate held epoch log)
    (hclosing : gate ≠ some .closing)
    (hleased : ∀ x ∈ held', x.gated = true →
      ∃ m, gate' = some (.enqueuing m))
    (hreading : ∀ limit e, gate' = some (.fencing limit (some e)) →
      e ≤ epoch) : Fences gate' held' epoch log := by
  refine ⟨hleased, hreading, ?_, h.past⟩
  intro before e batch since hlog
  obtain ⟨hle, hlt⟩ := h.behind before e batch since hlog
  refine ⟨hle, fun hsince => hlt ?_⟩
  exact hsince.imp_right fun hc => ⟨hc.1, hclosing⟩

/-- No lease is out unless an `enqueue` has the gate. -/
theorem pass (h : Fences gate held epoch log)
    (hclosing : gate ≠ some .closing)
    (hfree : ∀ m, gate ≠ some (.enqueuing m))
    (hreading : ∀ limit e, gate' = some (.fencing limit (some e)) →
      e ≤ epoch) : Fences gate' held epoch log := by
  refine h.hand hclosing (fun x hx hgated => ?_) hreading
  obtain ⟨m, hm⟩ := h.leased x hx hgated
  exact absurd hm (hfree m)

/-- Only the entries of the gate move the epochs. -/
theorem note (h : Fences gate held epoch log) (hevent : ¬ event.IsPhone) :
    Fences gate held epoch (log ++ [event]) := by
  refine ⟨h.leased, h.reading, ?_, everyAt_snoc.mpr ⟨h.past, ?_⟩⟩
  · intro before e batch since hlog
    rcases snoc_eq_append_cons hlog with ⟨-, rfl, -⟩ | ⟨since', rfl, hlog'⟩
    · exact absurd trivial hevent
    · obtain ⟨hle, hlt⟩ := h.behind before e batch since' hlog'
      refine ⟨hle, fun hsince => hlt ?_⟩
      have hc : event ≠ .closed := fun heq => hevent (heq ▸ trivial)
      have hm : event ≠ .moved := fun heq => hevent (heq ▸ trivial)
      simpa [hc.symm, hm.symm] using hsince
  · rintro e current rfl
    exact absurd trivial hevent

/-- A batch is taken under an epoch that has come. -/
theorem fence {e : Nat} (h : Fences gate held epoch log) (he : e ≤ epoch)
    (batch : List ControlMsg) :
    Fences gate held epoch (log ++ [.fenced e batch]) := by
  refine ⟨h.leased, h.reading, ?_, everyAt_snoc.mpr ⟨h.past, ?_⟩⟩
  · intro before e' batch' since hlog
    rcases snoc_eq_append_cons hlog with ⟨rfl, heq, -⟩ | ⟨since', rfl, hlog'⟩
    · cases heq
      refine ⟨he, ?_⟩
      rintro (hm | ⟨hc, -⟩)
      · cases hm
      · cases hc
    · obtain ⟨hle, hlt⟩ := h.behind before e' batch' since' hlog'
      exact ⟨hle, fun hsince => hlt (by simpa using hsince)⟩
  · intro e' current heq
    cases heq

theorem close (h : Fences none held epoch log) :
    Fences (some .closing) held epoch (log ++ [.closed]) := by
  refine ⟨?_, ?_, ?_, everyAt_snoc.mpr ⟨h.past, ?_⟩⟩
  · intro x hx hgated
    obtain ⟨m, hm⟩ := h.leased x hx hgated
    cases hm
  · intro limit e heq
    cases heq
  · intro before e batch since hlog
    rcases snoc_eq_append_cons hlog with ⟨-, heq, -⟩ | ⟨since', rfl, hlog'⟩
    · cases heq
    · obtain ⟨hle, hlt⟩ := h.behind before e batch since' hlog'
      refine ⟨hle, ?_⟩
      rintro (hm | ⟨-, hne⟩)
      · exact hlt (Or.inl (by simpa using hm))
      · exact absurd rfl hne
  · intro e current heq
    cases heq

theorem move (h : Fences (some .closing) held epoch log) :
    Fences (some .purging) held (epoch + 1) (log ++ [.moved]) := by
  refine ⟨?_, ?_, ?_, everyAt_snoc.mpr ⟨h.past, ?_⟩⟩
  · intro x hx hgated
    obtain ⟨m, hm⟩ := h.leased x hx hgated
    cases hm
  · intro limit e heq
    cases heq
  · intro before e batch since hlog
    rcases snoc_eq_append_cons hlog with ⟨-, heq, -⟩ | ⟨since', rfl, hlog'⟩
    · cases heq
    · have hle := (h.behind before e batch since' hlog').1
      exact ⟨by omega, fun _ => by omega⟩
  · intro e current heq
    cases heq

/-- A batch behind which the gate has closed is not current. -/
theorem check (h : Fences gate held epoch log)
    (hclosing : gate ≠ some .closing) (e : Nat) :
    Fences gate held epoch (log ++ [.checked e (e == epoch)]) := by
  refine ⟨h.leased, h.reading, ?_, everyAt_snoc.mpr ⟨h.past, ?_⟩⟩
  · intro before e' batch since hlog
    rcases snoc_eq_append_cons hlog with ⟨-, heq, -⟩ | ⟨since', rfl, hlog'⟩
    · cases heq
    · obtain ⟨hle, hlt⟩ := h.behind before e' batch since' hlog'
      exact ⟨hle, fun hsince => hlt (by simpa using hsince)⟩
  · rintro e' current heq ⟨before, batch, since, hlog, hsince⟩
    cases heq
    have hlt := (h.behind before e batch since hlog).2
      (hsince.symm.imp_right fun hc => ⟨hc, hclosing⟩)
    simp only [beq_eq_false_iff_ne]
    omega

end Fences

/-- The invariant, of the shared inbox. -/
def SharedInbox.Fences (s : SharedInbox) : Prop :=
  Inbox.Fences s.gateSection s.stateSection s.inbox.phoneInputEpoch s.log

/-- The state lock is released, and the gate with it if it was leased. -/
theorem SharedInbox.leave_fences (hs : s.Fences)
    (hheld : s.stateSection = some h) : (s.leave h).Fences := by
  unfold SharedInbox.leave SharedInbox.Fences
  cases hgated : h.gated with
  | true =>
    obtain ⟨m, hgate⟩ := hs.leased h hheld hgated
    refine Inbox.Fences.hand hs ?_ ?_ ?_
    · intro heq
      rw [hgate] at heq
      cases heq
    · intro x hx
      cases hx
    · intro limit e heq
      cases heq
  | false =>
    refine ⟨?_, hs.reading, hs.behind, hs.past⟩
    intro x hx
    cases hx

theorem SharedInbox.commit_fences (hs : s.Fences)
    (hheld : s.stateSection = some h) : (s.commit h).Fences := by
  have hleave : ({ s with inbox := { s.inbox with
      state := (s.inbox.state.enqueue h.message).1 } }.leave h).Fences :=
    leave_fences hs hheld
  unfold SharedInbox.commit
  dsimp only
  split
  · exact Inbox.Fences.note hleave fun hp => hp
  · exact hleave

theorem SharedInbox.step_fences (hs : s.Fences)
    (op : GateOp) : (s.step op).Fences := by
  unfold SharedInbox.step
  cases op with
  | enqueueEnter m =>
    dsimp only
    split
    · exact Inbox.Fences.note hs fun hp => hp
    · split
      · exact hs
      · split
        · exact hs
        · rename_i hgate
          split
          · refine Inbox.Fences.hand hs ?_ ?_ ?_
            · intro heq; exact hgate (by rw [heq]; simp)
            · exact fun _ _ _ => ⟨m, rfl⟩
            · intro limit e heq; cases heq
          · exact hs
  | enqueueLock caller =>
    dsimp only
    split
    · exact hs
    · split
      · exact hs
      · refine ⟨?_, hs.reading, hs.behind, hs.past⟩
        intro x hx hgated
        cases hx
        cases hgated
  | enqueueLockGated =>
    dsimp only
    split
    · rename_i m hgate
      split
      · exact hs
      · exact ⟨fun _ _ _ => ⟨m, hgate⟩, hs.reading, hs.behind, hs.past⟩
    · exact hs
  | enqueueLoad =>
    dsimp only
    split
    · exact hs
    · rename_i held hheld
      have hload : ∀ point, SharedInbox.Fences
          { s with stateSection := some { held with point } } := by
        intro point
        refine ⟨?_, hs.reading, hs.behind, hs.past⟩
        intro x hx hgated
        cases hx
        exact hs.leased held hheld hgated
      split
      · exact hload _
      · exact hload _
      · exact hs
  | enqueueDecide =>
    dsimp only
    split
    · exact hs
    · rename_i held hheld
      split
      · exact commit_fences hs hheld
      · split
        · exact leave_fences hs hheld
        · exact commit_fences hs hheld
      · exact hs
  | takeBatch limit =>
    dsimp only
    split
    · exact hs
    · exact Inbox.Fences.note hs fun hp => hp
  | fencedEnter limit =>
    dsimp only
    split
    · exact hs
    · split
      · exact hs
      · rename_i hgate
        have hnone : s.gateSection = none := not_not.mp hgate
        exact Inbox.Fences.pass hs (by simp [hnone]) (by simp [hnone])
          (by simp)
  | unfencedTake caller =>
    dsimp only
    split
    · exact hs
    · split
      · exact hs
      · exact Inbox.Fences.fence hs (Nat.zero_le _) _
  | fencedEpoch =>
    dsimp only
    split
    · rename_i limit hgate
      refine Inbox.Fences.pass hs (by simp [hgate]) (by simp [hgate]) ?_
      intro limit e heq
      cases heq
      exact Nat.le_refl _
    · exact hs
  | fencedTake =>
    dsimp only
    split
    · rename_i limit epoch hgate
      split
      · exact hs
      · rename_i hstate
        refine Inbox.Fences.fence ?_ (hs.reading limit epoch hgate) _
        exact Inbox.Fences.pass hs (by simp [hgate]) (by simp [hgate])
          (fun _ _ heq => by cases heq)
    · exact hs
  | updateWrite p enabled =>
    dsimp only
    split
    · exact hs
    · refine Inbox.Fences.note hs ?_
      cases enabled <;> exact fun hp => hp
  | updateKnown call =>
    dsimp only
    split
    · split <;> exact hs
    · exact hs
  | updateDiscard call =>
    dsimp only
    split
    · split
      · exact Inbox.Fences.note hs fun hp => hp
      · exact hs
    · exact hs
  | readyStore ready => exact hs
  | readySet caller =>
    dsimp only
    split
    · exact hs
    · split
      · exact hs
      · rename_i hgate
        split
        · exact hs
        · have hnone : s.gateSection = none := not_not.mp hgate
          unfold SharedInbox.Fences at hs
          rw [hnone] at hs
          exact hs.close
  | readyMove =>
    dsimp only
    split
    · rename_i hgate
      unfold SharedInbox.Fences at hs
      rw [hgate] at hs
      exact hs.move
    · exact hs
  | readyPurge =>
    dsimp only
    split
    · rename_i hgate
      exact Inbox.Fences.pass hs (by simp [hgate.1]) (by simp [hgate.1])
        (by simp)
    · exact hs
  | checkEnter epoch =>
    dsimp only
    split
    · rename_i hgate
      exact Inbox.Fences.pass hs (by simp [hgate.2]) (by simp [hgate.2])
        (by simp)
    · exact hs
  | checkRead =>
    dsimp only
    split
    · rename_i epoch hgate
      have hopen : Inbox.Fences none s.stateSection
          s.inbox.phoneInputEpoch s.log := by
        exact Inbox.Fences.pass hs (by simp [hgate]) (by simp [hgate])
          (by simp)
      exact hopen.check (by simp) epoch
    · exact hs

-- ==================================== runs

theorem SharedInbox.start_denies (gates : ControlInbox) :
    (start gates).Denies := by
  refine ⟨?_, ?_, ?_, ?_, ?_, ?_, everyAt_nil _⟩
  · intro e he
    cases he
  · intro u hu
    cases hu
  · rintro call p ⟨before, since, hlog, -⟩
    exact absurd hlog (by simp [start])
  · intro call p hp
    cases hp
  · intro p hp e he
    cases he
  · intro p hp x hx
    cases hx

theorem SharedInbox.start_fences (gates : ControlInbox) :
    (start gates).Fences := by
  refine ⟨?_, ?_, ?_, everyAt_nil _⟩
  · intro x hx
    cases hx
  · intro limit e heq
    cases heq
  · intro before e batch since hlog
    exact absurd hlog (by simp [start])

end RemoteDesk.Inbox
