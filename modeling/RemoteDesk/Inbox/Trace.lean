/-
Runs of the inbox, with what an observer writes down.

# The trace

A `Trace` is the inbox together with three records no code reads: the
messages accepted so far under their numbers, the deliveries so far, and
for every number the accepted messages its entry stands for (`merged`) —
a merged touch or wheel entry stands for all the deltas folded into it.

# The ledger

Ordering is about the queues and the records alone, so the trace is
projected to a `Ledger` and its steps to four rules: accept a message,
use up a number, pop an oldest head, hand out a flag. `Trace.simulates`
says that a guarded run of the inbox is a run of those rules; the two
ordering results are invariants of the ledger.

# Two standing assumptions

Numbers stay below `u64::MAX` (`Ledger.Step` demands it of every rule
that uses one), and permissions do not change during the run: the gates
the run starts with are arbitrary, `enqueue` and `take_batch` are its
only calls.
-/
import RemoteDesk.Inbox.Drain

namespace RemoteDesk.Inbox

open Lib

-- ================================== ledger

/-- What an ordering argument sees of a run. -/
structure Ledger where
  accepted : List SequencedControl
  merged : Nat → List Nat
  next : Nat
  queues : Queues
  delivered : List Delivery

namespace Ledger

/-- The slot entry a touch or wheel delta is folded into. -/
def foldsInto (q : Queues) (m : ControlMsg) : Option Nat :=
  if m.isTouchUpdate then q.touchUpdate.map (·.sequence)
  else if m.isWheel2D then q.mouseWheel2D.map (·.sequence)
  else none

/-- The record of `merged` after accepting `m` under `n`. -/
def merge (merged : Nat → List Nat) (q : Queues) (n : Nat)
    (m : ControlMsg) (i : Nat) : List Nat :=
  if i = n then (foldsInto q m).elim [n] fun old => merged old ++ [n]
  else merged i

/-- The ledger after accepting `m`, which left the queues `q'`. -/
def accepting (l : Ledger) (m : ControlMsg) (q' : Queues) : Ledger :=
  { l with
    accepted := l.accepted ++ [⟨l.next, m⟩]
    merged := merge l.merged l.queues l.next m
    next := l.next + 1
    queues := q' }

/-- The ledger after a turn of the drain loop. -/
def popping (l : Ledger) (out : List Delivery) (q' : Queues) : Ledger :=
  { l with queues := q', delivered := l.delivered ++ out }

/-- The four things a run does, under a `guard` on accepted messages. -/
inductive Step (guard : Ledger → ControlMsg → Prop) :
    Ledger → Ledger → Prop
  | accept (l : Ledger) (m : ControlMsg) (q' : Queues)
      (hn : l.next < u64Max) (hg : guard l m)
      (hq : Enqueued l.queues l.next m q') :
      Step guard l (l.accepting m q')
  | skip (l : Ledger) (hn : l.next < u64Max) :
      Step guard l { l with next := l.next + 1 }
  | pop (l : Ledger) (out : List Delivery) (q' : Queues)
      (hq : Popped l.queues out q') :
      Step guard l (l.popping out q')
  | flag (l : Ledger) (d : Delivery) (hd : d.IsFlag) :
      Step guard l { l with delivered := l.delivered ++ [d] }

end Ledger

-- =================================== gates

namespace ControlInbox

/-- What the permission and phone gates let through. -/
def Admits (inbox : ControlInbox) (m : ControlMsg) : Prop :=
  inbox.phoneInputLease m ≠ some false ∧ inbox.denied m = false

instance (inbox : ControlInbox) (m : ControlMsg) :
    Decidable (inbox.Admits m) :=
  inferInstanceAs (Decidable (_ ∧ _))

variable {inbox : ControlInbox} {m : ControlMsg}

theorem enqueue_admitted (hm : m ≠ .shutdown) (ha : inbox.Admits m) :
    inbox.enqueue m
      = ({ inbox with state := (inbox.state.enqueue m).1 },
        (inbox.state.enqueue m).2) := by
  unfold enqueue
  rw [if_neg hm, if_neg ha.1, ha.2, if_neg Bool.false_ne_true]

theorem enqueue_refused (hm : m ≠ .shutdown) (ha : ¬ inbox.Admits m) :
    inbox.enqueue m = (inbox, false) := by
  unfold enqueue
  rw [if_neg hm]
  by_cases hlease : inbox.phoneInputLease m = some false
  · rw [if_pos hlease]
  · rw [if_neg hlease]
    cases hdenied : inbox.denied m with
    | true => exact if_pos rfl
    | false => exact absurd ⟨hlease, hdenied⟩ ha

end ControlInbox

-- =================================== trace

/-- The inbox and the records of its run. -/
structure Trace where
  inbox : ControlInbox
  accepted : List SequencedControl := []
  merged : Nat → List Nat := fun n => [n]
  delivered : List Delivery := []

/-- The two calls a run is made of. -/
inductive Op
  | enqueue (message : ControlMsg)
  | takeBatch (limit : Nat)
  deriving DecidableEq, Repr

namespace Trace

/-- A fresh inbox under any permission and phone gates. -/
def start (gates : ControlInbox) : Trace :=
  { inbox := { gates with state := {} } }

def next (t : Trace) : Nat := t.inbox.state.nextSequence
def queues (t : Trace) : Queues := t.inbox.state.queues

def ledger (t : Trace) : Ledger :=
  { accepted := t.accepted, merged := t.merged, next := t.next
    queues := t.queues, delivered := t.delivered }

/-- One `enqueue`. A shutdown request is a flag of the inbox, not a
queued message, so it is not among the accepted. -/
def stepEnqueue (t : Trace) (m : ControlMsg) : Trace :=
  let (inbox, accepted) := t.inbox.enqueue m
  if accepted = true ∧ m ≠ .shutdown then
    { inbox
      accepted := t.accepted ++ [⟨t.next, m⟩]
      merged := Ledger.merge t.merged t.queues t.next m
      delivered := t.delivered }
  else { t with inbox }

/-- One `take_batch`. -/
def stepTakeBatch (t : Trace) (limit : Nat) : Trace :=
  let (batch, state) := t.inbox.state.takeBatchSequenced limit
  { t with
    inbox := { t.inbox with state }
    delivered := t.delivered ++ batch }

def step (t : Trace) : Op → Trace
  | .enqueue m => t.stepEnqueue m
  | .takeBatch limit => t.stepTakeBatch limit

-- ============================== simulation

variable {guard : Ledger → ControlMsg → Prop}

/-- One `enqueue`, under a guard that speaks only of accepted
messages. -/
private theorem enqueue_simulates {t : Trace} {m : ControlMsg}
    (hn : t.next < u64Max) (hg : t.inbox.Admits m → guard t.ledger m) :
    Relation.ReflTransGen (Ledger.Step guard) t.ledger
      (t.stepEnqueue m).ledger := by
  have hnext : t.inbox.state.afterSequence = t.next + 1 := by
    show min u64Max (t.next + 1) = t.next + 1
    omega
  unfold stepEnqueue
  by_cases hm : m = .shutdown
  · subst hm; exact .refl
  by_cases ha : t.inbox.Admits m
  · rw [ControlInbox.enqueue_admitted hm ha]
    obtain ⟨⟨s', accepted⟩, hs⟩ :
        ∃ result, t.inbox.state.enqueue m = result := ⟨_, rfl⟩
    rw [hs]
    cases accepted with
    | true =>
      obtain ⟨hq, hnx⟩ := ControlInboxState.enqueue_accepted hm hs
      rw [hnext] at hnx
      have hstep := Ledger.Step.accept t.ledger m s'.queues hn (hg ha) hq
      dsimp only
      rw [if_pos ⟨rfl, hm⟩]
      rw [Ledger.accepting,
        show t.ledger.next + 1 = s'.nextSequence from hnx.symm] at hstep
      exact .single hstep
    | false =>
      obtain ⟨hq, hnx⟩ := ControlInboxState.enqueue_rejected hs
      rw [hnext] at hnx
      have hstep : Ledger.Step guard t.ledger _ :=
        .skip t.ledger hn
      dsimp only
      rw [if_neg (fun h => Bool.false_ne_true h.1)]
      show Relation.ReflTransGen _ _ { t.ledger with
        next := s'.nextSequence, queues := s'.queues }
      rw [hnx, hq]
      exact .single hstep
  · rw [ControlInbox.enqueue_refused hm ha]
    exact .refl

/-- One `take_batch`. -/
private theorem takeBatch_simulates (t : Trace) (limit : Nat) :
    Relation.ReflTransGen (Ledger.Step guard) t.ledger
      (t.stepTakeBatch limit).ledger := by
  have h := ControlInboxState.takeBatch_invariant
    (I := fun q log => Relation.ReflTransGen (Ledger.Step guard)
      t.ledger { t.ledger with queues := q, delivered := log })
    (fun q log out q' h hq => h.tail
      (Ledger.Step.pop { t.ledger with queues := q, delivered := log }
        out q' hq))
    (fun q log d h hd => h.tail
      (Ledger.Step.flag { t.ledger with queues := q, delivered := log }
        d hd))
    limit t.delivered (Relation.ReflTransGen.refl :
      Relation.ReflTransGen (Ledger.Step guard) t.ledger
        { t.ledger with
          queues := t.inbox.state.queues, delivered := t.delivered })
  obtain ⟨hrun, hnext⟩ := h
  show Relation.ReflTransGen _ _ { t.ledger with
    next := (t.inbox.state.takeBatchSequenced limit).2.nextSequence
    queues := (t.inbox.state.takeBatchSequenced limit).2.queues
    delivered := t.delivered
      ++ (t.inbox.state.takeBatchSequenced limit).1 }
  rw [hnext]
  exact hrun

/-- A guarded call: numbers do not saturate, and what the gates let
through meets `guard`. -/
def Guarded (guard : Trace → ControlMsg → Prop) (t : Trace) : Op → Prop
  | .enqueue m => t.next < u64Max ∧ (t.inbox.Admits m → guard t m)
  | .takeBatch _ => True

instance (guard : Trace → ControlMsg → Prop)
    [∀ t m, Decidable (guard t m)] (t : Trace) (op : Op) :
    Decidable (Guarded guard t op) :=
  match op with
  | .enqueue _ => inferInstanceAs (Decidable (_ ∧ _))
  | .takeBatch _ => isTrue trivial

/-- Every guarded run of the inbox is a run of the ledger's rules. -/
theorem simulates {t : Trace} {ops : List Op}
    (h : Meets step (Guarded fun t m => guard t.ledger m) t ops) :
    Relation.ReflTransGen (Ledger.Step guard) t.ledger
      (exec step t ops).ledger := by
  refine h.simulates fun t op hg => ?_
  cases op with
  | enqueue m => exact enqueue_simulates hg.1 hg.2
  | takeBatch limit => exact takeBatch_simulates t limit

end Trace

-- ========================== what is queued

namespace Ledger

/-- The ledger's bookkeeping: numbers below `next`, and every source
holds the kind of message it is for. -/
structure WellKept (l : Ledger) : Prop where
  accepted_lt : ∀ e ∈ l.accepted, e.sequence < l.next
  queued_lt : ∀ e ∈ l.queues.entries, e.sequence < l.next
  touch_lt : ∀ p, l.queues.touchUpdate = some p → p.sequence < l.next
  delivered_lt : ∀ d ∈ l.delivered, ∀ n, d.sequence = some n → n < l.next
  reliable_kind : ∀ e ∈ l.queues.reliable, e.message.isSwitch = false
  move_kind : ∀ e, l.queues.mouseMove = some e → e.message.isMove = true
  switch_kind : ∀ e, l.queues.displaySwitch = some e →
    e.message.isSwitch = true
  switch_accepted : ∀ e, l.queues.displaySwitch = some e →
    e ∈ l.accepted

/-- A fresh inbox is well kept. -/
theorem wellKept_start (gates : ControlInbox) :
    (Trace.start gates).ledger.WellKept where
  accepted_lt := by intro e he; cases he
  queued_lt := by intro e he; cases he
  touch_lt := by intro p hp; cases hp
  delivered_lt := by intro d hd; cases hd
  reliable_kind := by intro e he; cases he
  move_kind := by intro e he; cases he
  switch_kind := by intro e he; cases he
  switch_accepted := by intro e he; cases he

variable {guard : Ledger → ControlMsg → Prop} {l l' : Ledger}

variable {q' : Queues} {out : List Delivery}

theorem WellKept.accept (w : l.WellKept) {m : ControlMsg}
    (hq : Enqueued l.queues l.next m q') :
    (l.accepting m q').WellKept where
  accepted_lt := by
    intro e he
    rcases List.mem_append.mp he with he | he
    · exact Nat.lt_succ_of_lt (w.accepted_lt e he)
    · rw [List.mem_singleton.mp he]; exact Nat.lt_succ_self _
  queued_lt := by
    intro e he
    rcases hq.mem_entries he with he | he
    · exact Nat.lt_succ_of_lt (w.queued_lt e he)
    · rw [he.1]; exact Nat.lt_succ_self _
  touch_lt := by
    intro p hp
    cases hq with
    | flag | move | wheel => exact Nat.lt_succ_of_lt (w.touch_lt p hp)
    | switch | start | reliable => cases hp
    | touch pending hm hpn => cases hp; rw [hpn]; exact Nat.lt_succ_self _
  delivered_lt := fun d hd n hn =>
    Nat.lt_succ_of_lt (w.delivered_lt d hd n hn)
  reliable_kind := by
    intro e he
    cases hq with
    | flag | move | touch | wheel => exact w.reliable_kind e he
    | switch => exact w.reliable_kind e (List.mem_of_mem_filter he)
    | start x y hm =>
      rcases List.mem_append.mp he with he | he
      · exact w.reliable_kind e he
      · rw [List.mem_singleton.mp he, hm]; rfl
    | reliable hr =>
      rcases List.mem_append.mp he with he | he
      · rcases List.mem_append.mp he with he | he
        · exact w.reliable_kind e he
        · exact (Queues.kind_of_mem_flushed he).2.1
      · rw [List.mem_singleton.mp he]
        cases m <;> first | rfl | cases hr
  move_kind := by
    intro e he
    cases hq with
    | flag | start | touch | wheel | reliable => exact w.move_kind e he
    | move hm => cases he; exact hm
    | switch => cases he
  switch_kind := by
    intro e he
    cases hq with
    | flag | move | start | touch | wheel | reliable =>
      exact w.switch_kind e he
    | switch hs => cases he; exact hs
  switch_accepted := by
    intro e he
    refine List.mem_append.mpr ?_
    cases hq with
    | flag | move | start | touch | wheel | reliable =>
      exact Or.inl (w.switch_accepted e he)
    | switch hs => cases he; exact Or.inr (List.mem_singleton.mpr rfl)

theorem WellKept.pop (w : l.WellKept) (hq : Popped l.queues out q') :
    (l.popping out q').WellKept where
  accepted_lt := w.accepted_lt
  queued_lt := fun e he => w.queued_lt e (hq.mem_entries he)
  touch_lt := by
    intro p hp
    cases hq with
    | reliable | move | wheel | switch => exact w.touch_lt p hp
    | touch pending es rest hq old split hrest =>
      rw [hrest p hp]
      exact w.touch_lt pending hq
  delivered_lt := by
    intro d hd n hn
    rcases List.mem_append.mp hd with hd | hd
    · exact w.delivered_lt d hd n hn
    · obtain ⟨e, he, rfl⟩ := hq.mem_out hd
      cases hn
      exact w.queued_lt e he
  reliable_kind := by
    intro e he
    cases hq with
    | move | touch | wheel | switch => exact w.reliable_kind e he
    | reliable e' rest hq =>
      exact w.reliable_kind e (hq ▸ List.mem_cons_of_mem _ he)
  move_kind := by
    intro e he
    cases hq with
    | reliable | touch | wheel | switch => exact w.move_kind e he
    | move => cases he
  switch_kind := by
    intro e he
    cases hq with
    | reliable | move | touch | wheel => exact w.switch_kind e he
    | switch => cases he
  switch_accepted := by
    intro e he
    cases hq with
    | reliable | move | touch | wheel => exact w.switch_accepted e he
    | switch => cases he

/-- A button goes out of the deque. -/
theorem WellKept.popped_button (w : l.WellKept) (hq : Popped l.queues out q')
    {d : Delivery} (hd : d ∈ out) (hbutton : d.message.isButton = true) :
    ∃ e ∈ l.queues.reliable, d = e.delivery
      ∧ l.queues.Oldest e.sequence := by
  cases hq with
  | reliable e rest hq old =>
    exact ⟨e, by rw [hq]; simp, List.mem_singleton.mp hd, old⟩
  | move e he =>
    rw [List.mem_singleton.mp hd, SequencedControl.delivery_message,
      ControlMsg.isButton_eq_false (Or.inl (w.move_kind e he))] at hbutton
    cases hbutton
  | touch pending es rest hq old split =>
    obtain ⟨e, he, rfl⟩ := List.mem_map.mp hd
    rw [SequencedControl.delivery_message, (Queues.kind_of_mem_touchEntries
      (Popped.touch_mem hq split he)).1] at hbutton
    cases hbutton
  | wheel pending hq =>
    rw [List.mem_singleton.mp hd] at hbutton; cases hbutton
  | switch e he =>
    rw [List.mem_singleton.mp hd, SequencedControl.delivery_message,
      ControlMsg.isButton_eq_false (Or.inr (w.switch_kind e he))]
      at hbutton
    cases hbutton

/-- A display switch goes out of its slot. -/
theorem WellKept.popped_switch (w : l.WellKept) (hq : Popped l.queues out q')
    {d : Delivery} (hd : d ∈ out) (hswitch : d.message.isSwitch = true) :
    ∃ e, l.queues.displaySwitch = some e ∧ d = e.delivery
      ∧ out = [e.delivery] ∧ q' = { l.queues with displaySwitch := none }
      ∧ l.queues.Oldest e.sequence := by
  cases hq with
  | reliable e rest hq =>
    rw [List.mem_singleton.mp hd, SequencedControl.delivery_message,
      w.reliable_kind e (by rw [hq]; simp)] at hswitch
    cases hswitch
  | move e he =>
    rw [List.mem_singleton.mp hd, SequencedControl.delivery_message,
      ControlMsg.isSwitch_eq_false (Or.inl (w.move_kind e he))] at hswitch
    cases hswitch
  | touch pending es rest hq old split =>
    obtain ⟨e, he, rfl⟩ := List.mem_map.mp hd
    rw [SequencedControl.delivery_message, (Queues.kind_of_mem_touchEntries
      (Popped.touch_mem hq split he)).2.1] at hswitch
    cases hswitch
  | wheel pending hq =>
    rw [List.mem_singleton.mp hd] at hswitch; cases hswitch
  | switch e he old =>
    exact ⟨e, he, List.mem_singleton.mp hd, rfl, rfl, old⟩

/-- Every rule keeps the ledger well kept. -/
theorem Step.wellKept (h : Step guard l l') (w : l.WellKept) :
    l'.WellKept := by
  cases h with
  | accept m q' hn hg hq => exact w.accept hq
  | skip hn =>
    exact { w with
      accepted_lt := fun e he => Nat.lt_succ_of_lt (w.accepted_lt e he)
      queued_lt := fun e he => Nat.lt_succ_of_lt (w.queued_lt e he)
      touch_lt := fun p hp => Nat.lt_succ_of_lt (w.touch_lt p hp)
      delivered_lt := fun d hd n hn =>
        Nat.lt_succ_of_lt (w.delivered_lt d hd n hn) }
  | pop out q' hq => exact w.pop hq
  | flag d hd =>
    refine { w with delivered_lt := fun d' hd' n hn => ?_ }
    rcases List.mem_append.mp hd' with hd' | hd'
    · exact w.delivered_lt d' hd' n hn
    · rw [List.mem_singleton.mp hd', hd.1] at hn; cases hn

end Ledger

end RemoteDesk.Inbox
