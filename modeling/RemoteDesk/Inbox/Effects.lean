/-
What one call can do to the inbox's queues, said once.

# The queues

Every ordering argument reads five fields of the state: the reliable
deque and the four slots. `Queues` is that projection. The counters and
touch flags decide only whether a message is accepted.

# The inversion lemmas

- `Enqueued q sequence message q'`: the seven things an accepted
  enqueue can do (`enqueue_accepted`); a rejected one does nothing to
  the queues (`enqueue_rejected`).
- `Popped q out q'`: the five things one turn of the drain loop can do,
  each with the fact that decided it — the popped head is the oldest
  (`popOrdered_popped`).

`takeBatch_invariant` is the drain induction over `Popped`: an
invariant of (queues, log) that every pop keeps is kept by every
`take_batch`, whatever its limit. That the loop's fuel never decides
where a batch ends is `drainOrdered_stops`.
-/
import RemoteDesk.Inbox.State

namespace RemoteDesk.Inbox

-- ================================== queues

/-- The queues of the inbox: the state the order of delivery is made
of. -/
structure Queues where
  reliable : List SequencedControl
  mouseMove : Option SequencedControl
  touchUpdate : Option PendingTouchUpdate
  mouseWheel2D : Option PendingMouseWheel2D
  displaySwitch : Option SequencedControl

def ControlInboxState.queues (state : ControlInboxState) : Queues :=
  { reliable := state.reliable
    mouseMove := state.mouseMove
    touchUpdate := state.touchUpdate
    mouseWheel2D := state.mouseWheel2D
    displaySwitch := state.displaySwitch }

/-- The messages a touch slot stands for: its scale, then its pan. -/
def PendingTouchUpdate.entries (pending : PendingTouchUpdate) :
    List SequencedControl :=
  (pending.scale.toList.map fun scale =>
      ⟨pending.sequence, .touchScale scale⟩)
    ++ (pending.pan.toList.map fun pan =>
      ⟨pending.sequence, .touchPanUpdate pan.1 pan.2⟩)

/-- The message a wheel slot stands for. -/
def PendingMouseWheel2D.entry (pending : PendingMouseWheel2D) :
    SequencedControl :=
  ⟨pending.sequence, .mouseWheel2D pending.x pending.y⟩

variable {e : SequencedControl} {n : Nat} {q : Queues} {m : ControlMsg}

theorem PendingTouchUpdate.entries_sequence {pending : PendingTouchUpdate}
    (he : e ∈ pending.entries) : e.sequence = pending.sequence := by
  simp only [entries, List.mem_append, List.mem_map] at he
  rcases he with ⟨_, -, rfl⟩ | ⟨_, -, rfl⟩ <;> rfl

/-- A delivery without a sequence number, and without bearing on order. -/
def Delivery.IsFlag (d : Delivery) : Prop :=
  d.sequence = none ∧ d.message.isPointer = false
    ∧ d.message.isSwitch = false

namespace Queues

/-- What a flush appends to the deque. -/
def flushed (q : Queues) : List SequencedControl :=
  match q.touchUpdate, q.mouseWheel2D with
  | some touch, some wheel =>
    if touch.sequence ≤ wheel.sequence then
      touch.entries ++ [wheel.entry]
    else wheel.entry :: touch.entries
  | some touch, none => touch.entries
  | none, some wheel => [wheel.entry]
  | none, none => []

def touchEntries (q : Queues) : List SequencedControl :=
  q.touchUpdate.elim [] PendingTouchUpdate.entries

def wheelEntries (q : Queues) : List SequencedControl :=
  q.mouseWheel2D.toList.map PendingMouseWheel2D.entry

/-- Every message waiting in the inbox. -/
def entries (q : Queues) : List SequencedControl :=
  q.reliable ++ q.mouseMove.toList ++ q.touchEntries ++ q.wheelEntries
    ++ q.displaySwitch.toList

theorem mem_flushed :
    e ∈ q.flushed ↔ e ∈ q.touchEntries ∨ e ∈ q.wheelEntries := by
  unfold flushed touchEntries wheelEntries
  cases q.touchUpdate <;> cases q.mouseWheel2D
  case some.some touch wheel =>
    by_cases h : touch.sequence ≤ wheel.sequence
    · simp [h]
    · simp [h, or_comm]
  all_goals simp

theorem mem_entries :
    e ∈ q.entries ↔ e ∈ q.reliable ∨ q.mouseMove = some e
      ∨ e ∈ q.touchEntries ∨ e ∈ q.wheelEntries
      ∨ q.displaySwitch = some e := by
  simp only [entries, List.mem_append, Option.mem_toList, or_assoc]

/-- The slots hold pointer deltas only. -/
theorem kind_of_mem_touchEntries
    (he : e ∈ q.touchEntries) : e.message.isButton = false
      ∧ e.message.isSwitch = false ∧ e.message.isPointer = true := by
  unfold touchEntries at he
  cases hq : q.touchUpdate with
  | none => rw [hq] at he; cases he
  | some p =>
    rw [hq] at he
    rcases List.mem_append.mp he with he | he <;>
      · obtain ⟨_, -, rfl⟩ := List.mem_map.mp he
        exact ⟨rfl, rfl, rfl⟩

theorem kind_of_mem_wheelEntries
    (he : e ∈ q.wheelEntries) : e.message.isButton = false
      ∧ e.message.isSwitch = false ∧ e.message.isPointer = true := by
  obtain ⟨_, -, rfl⟩ := List.mem_map.mp he
  exact ⟨rfl, rfl, rfl⟩

theorem kind_of_mem_flushed (he : e ∈ q.flushed) : e.message.isButton = false
      ∧ e.message.isSwitch = false ∧ e.message.isPointer = true := by
  rcases mem_flushed.mp he with he | he
  · exact kind_of_mem_touchEntries he
  · exact kind_of_mem_wheelEntries he

/-- The sequence number at the head of each source. -/
def headSequence (q : Queues) : OrderedPending → Option Nat
  | .reliable => q.reliable.head?.map (·.sequence)
  | .mouseMove => q.mouseMove.map (·.sequence)
  | .touchUpdate => q.touchUpdate.map (·.sequence)
  | .mouseWheel2D => q.mouseWheel2D.map (·.sequence)
  | .displaySwitch => q.displaySwitch.map (·.sequence)

/-- No source's head is older than `sequence`. -/
def Oldest (q : Queues) (sequence : Nat) : Prop :=
  ∀ source other, q.headSequence source = some other → sequence ≤ other

theorem Oldest.le_mouseMove (h : q.Oldest n) (he : q.mouseMove = some e) :
    n ≤ e.sequence :=
  h .mouseMove e.sequence (by simp [headSequence, he])

theorem Oldest.le_displaySwitch (h : q.Oldest n)
    (he : q.displaySwitch = some e) : n ≤ e.sequence :=
  h .displaySwitch e.sequence (by simp [headSequence, he])

theorem Oldest.le_reliable (h : q.Oldest n) {rest : List SequencedControl}
    (he : q.reliable = e :: rest) : n ≤ e.sequence :=
  h .reliable e.sequence (by simp [headSequence, he])

end Queues

-- ================================= effects

/-- The queues after an accepted enqueue of `message` under number
`sequence`. -/
inductive Enqueued (q : Queues) (sequence : Nat) (message : ControlMsg) :
    Queues → Prop
  /-- The two unsequenced flags touch no queue. -/
  | flag (hr : message.isReliable = false) (hm : message.isMove = false)
      (hs : message.isSwitch = false) (hp : message.isPointer = false) :
      Enqueued q sequence message q
  | move (hm : message.isMove = true) :
      Enqueued q sequence message
        { q with mouseMove := some ⟨sequence, message⟩ }
  | switch (hs : message.isSwitch = true) :
      Enqueued q sequence message
        { reliable := q.reliable.filter (!·.message.isStaleUpdate)
          mouseMove := none
          touchUpdate := none
          mouseWheel2D := none
          displaySwitch := some ⟨sequence, message⟩ }
  /-- A touch start drops the touch slot and flushes nothing. -/
  | start (x y : Int) (hm : message = .touchPanStart x y) :
      Enqueued q sequence message
        { q with
          reliable := q.reliable ++ [⟨sequence, message⟩]
          touchUpdate := none }
  /-- A touch delta replaces or joins its half of the slot. -/
  | touch (pending : PendingTouchUpdate)
      (hm : message.isTouchUpdate = true)
      (hp : pending.sequence = sequence)
      (folded : ∀ e ∈ pending.entries, message.shape = e.message.shape
        ∨ ∃ old ∈ q.touchEntries, old.message.shape = e.message.shape) :
      Enqueued q sequence message { q with touchUpdate := some pending }
  | wheel (pending : PendingMouseWheel2D)
      (hm : message.isWheel2D = true)
      (hp : pending.sequence = sequence) :
      Enqueued q sequence message { q with mouseWheel2D := some pending }
  | reliable (hr : message.isReliable = true) :
      Enqueued q sequence message
        { q with
          reliable := q.reliable ++ q.flushed ++ [⟨sequence, message⟩]
          touchUpdate := none
          mouseWheel2D := none }

/-- The queues after one turn of the drain loop that took `out`. -/
inductive Popped (q : Queues) : List Delivery → Queues → Prop
  | reliable (e : SequencedControl) (rest : List SequencedControl)
      (hq : q.reliable = e :: rest) (old : q.Oldest e.sequence) :
      Popped q [e.delivery] { q with reliable := rest }
  | move (e : SequencedControl) (hq : q.mouseMove = some e)
      (old : q.Oldest e.sequence) :
      Popped q [e.delivery] { q with mouseMove := none }
  /-- The touch slot goes out in one or two messages, or in two turns
  when the batch fills up between them. -/
  | touch (pending : PendingTouchUpdate)
      (out : List SequencedControl) (rest : Option PendingTouchUpdate)
      (hq : q.touchUpdate = some pending)
      (old : q.Oldest pending.sequence)
      (split : out ++ rest.elim [] PendingTouchUpdate.entries
        = pending.entries)
      (hrest : ∀ p ∈ rest, p.sequence = pending.sequence) :
      Popped q (out.map SequencedControl.delivery)
        { q with touchUpdate := rest }
  | wheel (pending : PendingMouseWheel2D)
      (hq : q.mouseWheel2D = some pending)
      (old : q.Oldest pending.sequence) :
      Popped q [pending.entry.delivery] { q with mouseWheel2D := none }
  | switch (e : SequencedControl) (hq : q.displaySwitch = some e)
      (old : q.Oldest e.sequence) :
      Popped q [e.delivery] { q with displaySwitch := none }

/-- An entry made by folding `m` in under number `n`: of the shape of
`m`, or of a delta that was already in the touch slot. -/
def FoldedFrom (q : Queues) (n : Nat) (m : ControlMsg)
    (e : SequencedControl) : Prop :=
  e.sequence = n ∧ (m.shape = e.message.shape
    ∨ (m.isTouchUpdate = true
      ∧ ∃ old ∈ q.touchEntries, old.message.shape = e.message.shape))

variable {q' : Queues}

/-- Everything waiting after an enqueue waited before it, or carries the
new number. -/
theorem Enqueued.mem_entries (h : Enqueued q n m q')
    (he : e ∈ q'.entries) : e ∈ q.entries ∨ FoldedFrom q n m e := by
  rw [Queues.mem_entries] at he ⊢
  cases h with
  | flag => exact Or.inl he
  | move =>
    rcases he with h | h | h
    · exact Or.inl (Or.inl h)
    · cases h; exact Or.inr ⟨rfl, Or.inl rfl⟩
    · exact Or.inl (Or.inr (Or.inr h))
  | switch =>
    rcases he with h | h | h | h | h
    · exact Or.inl (Or.inl (List.mem_of_mem_filter h))
    · cases h
    · simp [Queues.touchEntries] at h
    · simp [Queues.wheelEntries] at h
    · cases h; exact Or.inr ⟨rfl, Or.inl rfl⟩
  | start =>
    rcases he with h | h | h | h | h
    · rcases List.mem_append.mp h with h | h
      · exact Or.inl (Or.inl h)
      · rw [List.mem_singleton.mp h]; exact Or.inr ⟨rfl, Or.inl rfl⟩
    · exact Or.inl (Or.inr (Or.inl h))
    · simp [Queues.touchEntries] at h
    · exact Or.inl (Or.inr (Or.inr (Or.inr (Or.inl h))))
    · exact Or.inl (Or.inr (Or.inr (Or.inr (Or.inr h))))
  | touch pending hm hp folded =>
    rcases he with h | h | h | h
    · exact Or.inl (Or.inl h)
    · exact Or.inl (Or.inr (Or.inl h))
    · exact Or.inr ⟨(PendingTouchUpdate.entries_sequence h).trans hp,
        (folded e h).imp_right fun hold => ⟨hm, hold⟩⟩
    · exact Or.inl (Or.inr (Or.inr (Or.inr h)))
  | wheel pending hm hp =>
    rcases he with h | h | h | h | h
    · exact Or.inl (Or.inl h)
    · exact Or.inl (Or.inr (Or.inl h))
    · exact Or.inl (Or.inr (Or.inr (Or.inl h)))
    · simp only [Queues.wheelEntries, Option.toList_some,
        List.map_cons, List.map_nil, List.mem_singleton] at h
      rw [h]
      refine Or.inr ⟨hp, Or.inl ?_⟩
      cases m <;> first | rfl | cases hm
    · exact Or.inl (Or.inr (Or.inr (Or.inr (Or.inr h))))
  | reliable =>
    rcases he with h | h | h | h | h
    · rw [List.mem_append, List.mem_append, Queues.mem_flushed] at h
      rcases h with (h | h | h) | h
      · exact Or.inl (Or.inl h)
      · exact Or.inl (Or.inr (Or.inr (Or.inl h)))
      · exact Or.inl (Or.inr (Or.inr (Or.inr (Or.inl h))))
      · rw [List.mem_singleton.mp h]; exact Or.inr ⟨rfl, Or.inl rfl⟩
    · exact Or.inl (Or.inr (Or.inl h))
    · simp [Queues.touchEntries] at h
    · simp [Queues.wheelEntries] at h
    · exact Or.inl (Or.inr (Or.inr (Or.inr (Or.inr h))))

/-- Only a display switch removes from the deque; everything else
appends the message, or what it flushed. -/
theorem Enqueued.reliable_append (h : Enqueued q n m q')
    (hs : m.isSwitch = false) :
    ∃ es, q'.reliable = q.reliable ++ es
      ∧ ∀ e ∈ es, e = ⟨n, m⟩ ∨ e ∈ q.flushed := by
  cases h with
  | flag | move | touch | wheel => exact ⟨[], by simp, by simp⟩
  | switch hs' => rw [hs'] at hs; cases hs
  | start => exact ⟨[⟨n, m⟩], rfl, by simp⟩
  | reliable =>
    refine ⟨q.flushed ++ [⟨n, m⟩], List.append_assoc .., ?_⟩
    intro e he
    rcases List.mem_append.mp he with he | he
    · exact Or.inr he
    · exact Or.inl (List.mem_singleton.mp he)

/-- A turn of the drain loop adds nothing to the queues. -/
theorem Popped.mem_entries {out : List Delivery} (h : Popped q out q')
    (he : e ∈ q'.entries) : e ∈ q.entries := by
  rw [Queues.mem_entries] at he ⊢
  cases h with
  | reliable e' rest hq =>
    rcases he with h | h
    · exact Or.inl (hq ▸ List.mem_cons_of_mem _ h)
    · exact Or.inr h
  | move =>
    rcases he with h | h | h
    · exact Or.inl h
    · cases h
    · exact Or.inr (Or.inr h)
  | touch pending out rest hq old split hrest =>
    rcases he with h | h | h | h
    · exact Or.inl h
    · exact Or.inr (Or.inl h)
    · refine Or.inr (Or.inr (Or.inl ?_))
      rw [Queues.touchEntries, hq]
      show e ∈ pending.entries
      rw [← split]
      exact List.mem_append_right _ h
    · exact Or.inr (Or.inr (Or.inr h))
  | wheel =>
    rcases he with h | h | h | h | h
    · exact Or.inl h
    · exact Or.inr (Or.inl h)
    · exact Or.inr (Or.inr (Or.inl h))
    · simp [Queues.wheelEntries] at h
    · exact Or.inr (Or.inr (Or.inr (Or.inr h)))
  | switch =>
    rcases he with h | h | h | h | h
    · exact Or.inl h
    · exact Or.inr (Or.inl h)
    · exact Or.inr (Or.inr (Or.inl h))
    · exact Or.inr (Or.inr (Or.inr (Or.inl h)))
    · cases h

/-- What a turn takes out of the touch slot was in it. -/
theorem Popped.touch_mem {pending : PendingTouchUpdate}
    {out : List SequencedControl} {rest : List SequencedControl}
    (hq : q.touchUpdate = some pending) (split : out ++ rest = pending.entries)
    (he : e ∈ out) : e ∈ q.touchEntries := by
  rw [Queues.touchEntries, hq]
  show e ∈ pending.entries
  rw [← split]
  exact List.mem_append_left _ he

/-- What a turn of the drain loop hands out was waiting. -/
theorem Popped.mem_out {out : List Delivery} (h : Popped q out q')
    {d : Delivery} (hd : d ∈ out) : ∃ e ∈ q.entries, d = e.delivery := by
  cases h with
  | reliable e rest hq =>
    exact ⟨e, Queues.mem_entries.mpr (Or.inl (by rw [hq]; simp)),
      List.mem_singleton.mp hd⟩
  | move e hq =>
    exact ⟨e, Queues.mem_entries.mpr (Or.inr (Or.inl hq)),
      List.mem_singleton.mp hd⟩
  | touch pending out rest hq old split hrest =>
    obtain ⟨e, he, rfl⟩ := List.mem_map.mp hd
    exact ⟨e, Queues.mem_entries.mpr (Or.inr (Or.inr (Or.inl
      (touch_mem hq split he)))), rfl⟩
  | wheel pending hq =>
    refine ⟨pending.entry, Queues.mem_entries.mpr
      (Or.inr (Or.inr (Or.inr (Or.inl ?_)))), List.mem_singleton.mp hd⟩
    simp [Queues.wheelEntries, hq]
  | switch e hq =>
    exact ⟨e, Queues.mem_entries.mpr
      (Or.inr (Or.inr (Or.inr (Or.inr hq)))), List.mem_singleton.mp hd⟩

namespace ControlInboxState

-- ========================== the primitives

@[simp] theorem queues_enqueueReliable (s : ControlInboxState) (n : Nat)
    (m : ControlMsg) :
    (s.enqueueReliable n m).queues
      = { s.queues with reliable := s.queues.reliable ++ [⟨n, m⟩] } := rfl

@[simp] theorem nextSequence_enqueueReliable (s : ControlInboxState)
    (n : Nat) (m : ControlMsg) :
    (s.enqueueReliable n m).nextSequence = s.nextSequence := rfl

theorem queues_enqueueTouchUpdate (s : ControlInboxState)
    (p : PendingTouchUpdate) :
    (s.enqueueTouchUpdate p).queues
      = { s.queues with reliable := s.queues.reliable ++ p.entries } := by
  obtain ⟨n, scale, pan⟩ := p
  cases scale <;> cases pan <;>
    simp [enqueueTouchUpdate, PendingTouchUpdate.entries]

theorem nextSequence_enqueueTouchUpdate (s : ControlInboxState)
    (p : PendingTouchUpdate) :
    (s.enqueueTouchUpdate p).nextSequence = s.nextSequence := by
  obtain ⟨n, scale, pan⟩ := p
  cases scale <;> cases pan <;> rfl

theorem queues_flushCoalesced (s : ControlInboxState) :
    s.flushCoalesced.queues
      = { s.queues with
          reliable := s.queues.reliable ++ s.queues.flushed
          touchUpdate := none
          mouseWheel2D := none } := by
  have ht : s.queues.touchUpdate = s.touchUpdate := rfl
  have hw : s.queues.mouseWheel2D = s.mouseWheel2D := rfl
  unfold flushCoalesced Queues.flushed
  rw [ht, hw]
  cases s.touchUpdate <;> cases s.mouseWheel2D
  case none.none => rw [List.append_nil]; rfl
  case none.some wheel => rfl
  case some.none touch => exact queues_enqueueTouchUpdate _ _
  case some.some touch wheel =>
    dsimp only
    split
    · rw [enqueueMouseWheel2D, queues_enqueueReliable,
        queues_enqueueTouchUpdate, ← List.append_assoc]
      rfl
    · rw [queues_enqueueTouchUpdate, enqueueMouseWheel2D,
        queues_enqueueReliable,
        List.append_cons s.queues.reliable wheel.entry touch.entries]
      rfl

theorem nextSequence_flushCoalesced (s : ControlInboxState) :
    s.flushCoalesced.nextSequence = s.nextSequence := by
  unfold flushCoalesced
  cases s.touchUpdate <;> cases s.mouseWheel2D
  case some.some touch wheel =>
    dsimp only
    split <;> simp [enqueueMouseWheel2D, nextSequence_enqueueTouchUpdate]
  all_goals simp [enqueueMouseWheel2D, nextSequence_enqueueTouchUpdate]

/-- Folding a delta in gives entries of its shape or of one it found. -/
def FoldedInto (q : Queues) (m : ControlMsg) (p : PendingTouchUpdate) :
    Prop :=
  ∀ e ∈ p.entries, m.shape = e.message.shape
    ∨ ∃ old ∈ q.touchEntries, old.message.shape = e.message.shape

theorem queues_mergeTouchScale (s : ControlInboxState) (n : Nat)
    (scale : Int) :
    ∃ p : PendingTouchUpdate, p.sequence = n
      ∧ FoldedInto s.queues (.touchScale scale) p
      ∧ (s.mergeTouchScale n scale).queues
        = { s.queues with touchUpdate := some p }
      ∧ (s.mergeTouchScale n scale).nextSequence = s.nextSequence := by
  unfold mergeTouchScale
  cases hs : s.touchUpdate with
  | none =>
    refine ⟨_, rfl, fun e he => Or.inl ?_, rfl, rfl⟩
    rw [List.mem_singleton.mp he]
  | some pending =>
    obtain ⟨old, scale, pan⟩ := pending
    cases scale <;>
      · refine ⟨_, rfl, fun e he => ?_, rfl, rfl⟩
        cases pan with
        | none =>
          rw [List.mem_singleton.mp he]; exact Or.inl rfl
        | some pan =>
          rcases List.mem_cons.mp he with rfl | he
          · exact Or.inl rfl
          · rw [List.mem_singleton.mp he]
            exact Or.inr ⟨⟨old, .touchPanUpdate pan.1 pan.2⟩,
              by simp [Queues.touchEntries, queues, hs,
                PendingTouchUpdate.entries], rfl⟩

theorem queues_mergeTouchPan (s : ControlInboxState) (n : Nat)
    (x y : Int) :
    ∃ p : PendingTouchUpdate, p.sequence = n
      ∧ FoldedInto s.queues (.touchPanUpdate x y) p
      ∧ (s.mergeTouchPan n x y).queues
        = { s.queues with touchUpdate := some p }
      ∧ (s.mergeTouchPan n x y).nextSequence = s.nextSequence := by
  unfold mergeTouchPan
  cases hs : s.touchUpdate with
  | none =>
    refine ⟨_, rfl, fun e he => Or.inl ?_, rfl, rfl⟩
    rw [List.mem_singleton.mp he]
  | some pending =>
    obtain ⟨old, scale, pan⟩ := pending
    cases pan <;>
      · refine ⟨_, rfl, fun e he => ?_, rfl, rfl⟩
        cases scale with
        | none =>
          rw [List.mem_singleton.mp he]; exact Or.inl rfl
        | some scale =>
          rcases List.mem_cons.mp he with rfl | he
          · exact Or.inr ⟨⟨old, .touchScale scale⟩,
              by simp [Queues.touchEntries, queues, hs,
                PendingTouchUpdate.entries], rfl⟩
          · rw [List.mem_singleton.mp he]; exact Or.inl rfl

theorem queues_mergeMouseWheel2D (s : ControlInboxState) (n : Nat)
    (x y : Int) :
    ∃ p : PendingMouseWheel2D, p.sequence = n
      ∧ (s.mergeMouseWheel2D n x y).queues
        = { s.queues with mouseWheel2D := some p }
      ∧ (s.mergeMouseWheel2D n x y).nextSequence = s.nextSequence := by
  unfold mergeMouseWheel2D
  cases s.mouseWheel2D <;> exact ⟨_, rfl, rfl, rfl⟩

-- ================================= enqueue

/-- The number a call uses up, seen from after it. -/
def afterSequence (s : ControlInboxState) : Nat :=
  min u64Max (s.nextSequence + 1)

/-- The catch-all arm is the flush followed by the append. -/
theorem enqueueOther_enqueued (s : ControlInboxState) (n : Nat)
    (hr : m.isReliable = true) :
    Enqueued s.queues n m (s.enqueueOther n m).queues
      ∧ (s.enqueueOther n m).nextSequence = s.nextSequence := by
  unfold enqueueOther
  rw [queues_enqueueReliable, queues_flushCoalesced,
    nextSequence_enqueueReliable, nextSequence_flushCoalesced]
  exact ⟨.reliable hr, rfl⟩

/-- An accepted message: the queues move by exactly one effect, and one
number is used up. -/
theorem enqueue_accepted {s s' : ControlInboxState} (hm : m ≠ .shutdown)
    (h : s.enqueue m = (s', true)) :
    Enqueued s.queues s.nextSequence m s'.queues
      ∧ s'.nextSequence = s.afterSequence := by
  unfold enqueue takeSequence at h
  cases m with
  | shutdown => exact absurd rfl hm
  | mouseWheel2D x y =>
    dsimp only at h
    split at h
    · cases h
    · obtain ⟨p, hp, hq, hn⟩ := queues_mergeMouseWheel2D
        { s with nextSequence := s.afterSequence } s.nextSequence x y
      cases h
      refine ⟨?_, hn⟩
      exact hq ▸ .wheel p rfl hp
  | mouseMove x y => cases h; exact ⟨.move rfl, rfl⟩
  | displaySwitch d g => cases h; exact ⟨.switch rfl, rfl⟩
  | refreshVideo => cases h; exact ⟨.flag rfl rfl rfl rfl, rfl⟩
  | videoPressure l => cases h; exact ⟨.flag rfl rfl rfl rfl, rfl⟩
  | touchPanStart x y => cases h; exact ⟨.start x y rfl, rfl⟩
  | touchScale scale =>
    dsimp only at h
    split at h
    case isTrue hpos =>
      split at h
      · cases h
      · obtain ⟨p, hp, hf, hq, hn⟩ := queues_mergeTouchScale
          { s with nextSequence := s.afterSequence } s.nextSequence scale
        cases h
        refine ⟨?_, hn⟩
        exact hq ▸ .touch p (by simpa [ControlMsg.isTouchUpdate]) hp hf
    case isFalse hpos =>
      have hr : (ControlMsg.touchScale scale).isReliable = true := by
        simp only [ControlMsg.isReliable, decide_eq_true_eq]
        omega
      split at h
      · split at h
        · cases h
        · cases h
          exact enqueueOther_enqueued
            { s with nextSequence := s.afterSequence } _ hr
      · cases h
        exact enqueueOther_enqueued
          { s with nextSequence := s.afterSequence } _ hr
  | touchPanUpdate x y =>
    dsimp only at h
    split at h
    · cases h
    · obtain ⟨p, hp, hf, hq, hn⟩ := queues_mergeTouchPan
        { s with nextSequence := s.afterSequence } s.nextSequence x y
      cases h
      refine ⟨?_, hn⟩
      exact hq ▸ .touch p rfl hp hf
  | touchPanEnd x y =>
    dsimp only at h
    split at h
    · cases h
    · cases h
      exact enqueueOther_enqueued
        { s with nextSequence := s.afterSequence } _ rfl
  | _ =>
    cases h
    exact enqueueOther_enqueued
      { s with nextSequence := s.afterSequence } _ rfl

/-- A rejected message leaves the queues alone; it has used a number. -/
theorem enqueue_rejected {s s' : ControlInboxState}
    (h : s.enqueue m = (s', false)) :
    s'.queues = s.queues ∧ s'.nextSequence = s.afterSequence := by
  unfold enqueue takeSequence at h
  cases m with
  | mouseWheel2D x y =>
    dsimp only at h
    split at h
    · cases h; exact ⟨rfl, rfl⟩
    · cases h
  | touchScale scale =>
    dsimp only at h
    split at h
    · split at h
      · cases h; exact ⟨rfl, rfl⟩
      · cases h
    · split at h
      · split at h
        · cases h; exact ⟨rfl, rfl⟩
        · cases h
      · cases h
  | touchPanUpdate x y =>
    dsimp only at h
    split at h
    · cases h; exact ⟨rfl, rfl⟩
    · cases h
  | touchPanEnd x y =>
    dsimp only at h
    split at h
    · cases h; exact ⟨rfl, rfl⟩
    · cases h
  | _ => cases h

end ControlInboxState

end RemoteDesk.Inbox
