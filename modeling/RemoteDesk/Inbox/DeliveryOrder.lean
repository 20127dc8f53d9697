/-
The order of delivery against the order of acceptance.

# Numbers

Every accepted message takes a number, and an entry carries the number
of the last message folded into it. So "delivered in the order in which
the last component of each was accepted" is "delivered in the order of
the numbers", which is what `Trace.InOrder` says of a log. It also says
what a number is worth: that the message accepted under it is a
component of the entry and no component is newer, and that an entry
never stands for messages on both sides of a reliable one — the wheel
and movement waiting when a reliable message is accepted stay ahead of
it.

# Where the numbers are not the components

The two flags carry no number and go out after everything ordered. The
touch slot carries one number for its scale and its pan, which go out in
that order. `delivery_reordered` is one run for each.

# The start that does not flush

A `TouchPanStart` is appended without flushing the wheel slot, so a
wheel delta accepted before it can be flushed behind it later. The
order holds of the runs that accept no start over a waiting wheel
(`OrderGuard`).
-/
import RemoteDesk.Inbox.Pointers

namespace RemoteDesk.Inbox

open Lib

-- =========================== the statement

/-- The delivered `d` may be what the accepted `m` was folded into: `m`
itself, a merged wheel delta, or a half of the touch slot. -/
def ControlMsg.Carries (d m : ControlMsg) : Prop :=
  d = m ∨ (m.isWheel2D = true ∧ d.isWheel2D = true)
    ∨ (m.isTouchUpdate = true
      ∧ (d.shape = .touchScale 0 ∨ d.shape = .touchPanUpdate 0 0))

/-- `d` belongs before `d'`: an older number, or the scale and then the
pan of one touch entry. A flag has no number and no place. -/
def Delivery.Ahead (d d' : Delivery) : Prop :=
  ∀ n n', d.sequence = some n → d'.sequence = some n' →
    n < n' ∨ (n = n' ∧ d.message.shape = .touchScale 0
      ∧ d'.message.shape = .touchPanUpdate 0 0)

/-- The messages that go out without a number. -/
def ControlMsg.isFlag : ControlMsg → Bool
  | refreshVideo | videoPressure .. => true
  | _ => false

/-- The messages of a run are delivered in the order of their numbers,
which is the order in which the last component of each was accepted. -/
structure Trace.InOrder (t : Trace) : Prop where
  accepted : t.accepted.Pairwise (·.sequence < ·.sequence)
  delivered : t.delivered.Pairwise Delivery.Ahead
  flags : ∀ d ∈ t.delivered, d.sequence = none → d.message.isFlag = true
  carried : ∀ d ∈ t.delivered, ∀ n, d.sequence = some n →
    ∃ m, ⟨n, m⟩ ∈ t.accepted ∧ d.message.Carries m
  /-- The number is that of the last component. -/
  last : ∀ d ∈ t.delivered, ∀ n, d.sequence = some n →
    n ∈ t.merged n ∧ ∀ i ∈ t.merged n, i ≤ n
  /-- No component is on the other side of a reliable message. -/
  whole : ∀ d ∈ t.delivered, ∀ n, d.sequence = some n →
    ∀ i ∈ t.merged n, ∀ e ∈ t.accepted, e.message.isReliable = true →
      i < e.sequence → n < e.sequence

/-- What waits in a slot is not reliable. -/
theorem ControlMsg.isReliable_eq_false {m : ControlMsg}
    (h : m.isMove = true ∨ m.isTouchUpdate = true ∨ m.isWheel2D = true) :
    m.isReliable = false := by
  cases m with
  | touchScale scale =>
    have hpos : 0 < scale := by simpa [isMove, isTouchUpdate,
      isWheel2D] using h
    simpa [isReliable] using hpos
  | _ => first | rfl | simp [isMove, isTouchUpdate, isWheel2D] at h

/-- No display switch, and no touch start over a waiting wheel delta. -/
def Ledger.OrderGuard (l : Ledger) (m : ControlMsg) : Prop :=
  m.isSwitch = false
    ∧ (m.isTouchStart = true → l.queues.mouseWheel2D.isNone = true)

instance (l : Ledger) (m : ControlMsg) : Decidable (l.OrderGuard m) :=
  inferInstanceAs (Decidable (_ ∧ _))

-- ================================= entries

/-- `Delivery.Ahead` of two queued entries. -/
def SequencedControl.Before (e e' : SequencedControl) : Prop :=
  e.sequence < e'.sequence
    ∨ (e.sequence = e'.sequence ∧ e.message.shape = .touchScale 0
      ∧ e'.message.shape = .touchPanUpdate 0 0)

section Before

variable {e e' : SequencedControl}

theorem SequencedControl.Before.ahead (h : e.Before e') :
    e.delivery.Ahead e'.delivery := by
  intro n n' hn hn'
  cases hn
  cases hn'
  exact h

theorem SequencedControl.Before.le (h : e.Before e') :
    e.sequence ≤ e'.sequence := by
  rcases h with h | ⟨h, -⟩
  · exact Nat.le_of_lt h
  · exact Nat.le_of_eq h

theorem before_of_lt (h : e.sequence < e'.sequence) : e.Before e' :=
  Or.inl h

end Before

/-- A touch slot's scale goes before its pan. -/
theorem PendingTouchUpdate.pairwise_entries (p : PendingTouchUpdate) :
    p.entries.Pairwise SequencedControl.Before := by
  obtain ⟨n, scale, pan⟩ := p
  cases scale with
  | none => cases pan <;> simp [entries]
  | some scale =>
    cases pan with
    | none => simp [entries]
    | some pan =>
      simp only [entries, Option.toList_some, List.map_cons,
        List.map_nil, List.singleton_append, List.pairwise_cons,
        List.mem_singleton, forall_eq]
      exact ⟨Or.inr ⟨rfl, rfl, rfl⟩, by simp, .nil⟩

/-- The messages of a touch slot. -/
theorem PendingTouchUpdate.shape_of_mem_entries {p : PendingTouchUpdate}
    {e : SequencedControl} (he : e ∈ p.entries) :
    e.message.shape = .touchScale 0
      ∨ e.message.shape = .touchPanUpdate 0 0 := by
  simp only [entries, List.mem_append, List.mem_map] at he
  rcases he with ⟨_, -, rfl⟩ | ⟨_, -, rfl⟩
  · exact Or.inl rfl
  · exact Or.inr rfl

-- ================================== queues

variable {out : List Delivery}

namespace Queues

variable {q q' : Queues} {e : SequencedControl} {n : Nat}
  {m : ControlMsg}

theorem mem_touchEntries :
    e ∈ q.touchEntries ↔ ∃ p, q.touchUpdate = some p ∧ e ∈ p.entries := by
  unfold touchEntries
  cases q.touchUpdate <;> simp

theorem mem_wheelEntries :
    e ∈ q.wheelEntries ↔ ∃ p, q.mouseWheel2D = some p ∧ e = p.entry := by
  unfold wheelEntries
  cases q.mouseWheel2D <;> simp

/-- The deque is in order, the touch and wheel slots are newer than
everything in it, and no two sources share a number. -/
structure InOrder (q : Queues) : Prop where
  deque : q.reliable.Pairwise SequencedControl.Before
  touch : ∀ p, q.touchUpdate = some p →
    ∀ e ∈ q.reliable, e.sequence < p.sequence
  wheel : ∀ p, q.mouseWheel2D = some p →
    ∀ e ∈ q.reliable, e.sequence < p.sequence
  move : ∀ moved, q.mouseMove = some moved →
    ∀ e ∈ q.reliable, moved.sequence ≠ e.sequence
  move_touch : ∀ moved p, q.mouseMove = some moved →
    q.touchUpdate = some p → moved.sequence ≠ p.sequence
  move_wheel : ∀ moved p, q.mouseMove = some moved →
    q.mouseWheel2D = some p → moved.sequence ≠ p.sequence
  touch_wheel : ∀ p w, q.touchUpdate = some p →
    q.mouseWheel2D = some w → p.sequence ≠ w.sequence
  switch : q.displaySwitch = none

/-- What a flush appends is in order, newer than the deque, and not the
waiting movement. -/
theorem InOrder.flushed (h : q.InOrder) :
    q.flushed.Pairwise SequencedControl.Before := by
  unfold Queues.flushed
  cases ht : q.touchUpdate with
  | none =>
    cases q.mouseWheel2D with
    | none => exact .nil
    | some w => exact List.pairwise_singleton _ _
  | some p =>
    cases hw : q.mouseWheel2D with
    | none => exact p.pairwise_entries
    | some w =>
      have hne := h.touch_wheel p w ht hw
      show (if p.sequence ≤ w.sequence then p.entries ++ [w.entry]
        else w.entry :: p.entries).Pairwise _
      split
      case isTrue hle =>
        refine List.pairwise_append.mpr
          ⟨p.pairwise_entries, List.pairwise_singleton _ _, ?_⟩
        intro e he e' he'
        rw [List.mem_singleton.mp he']
        apply before_of_lt
        rw [PendingTouchUpdate.entries_sequence he]
        show p.sequence < w.sequence
        omega
      case isFalse hlt =>
        refine List.pairwise_cons.mpr ⟨fun e he => ?_,
          p.pairwise_entries⟩
        apply before_of_lt
        rw [PendingTouchUpdate.entries_sequence he]
        show w.sequence < p.sequence
        omega

theorem InOrder.reliable_lt_flushed (h : q.InOrder)
    {e' : SequencedControl} (he : e ∈ q.reliable)
    (he' : e' ∈ q.flushed) : e.sequence < e'.sequence := by
  rcases mem_flushed.mp he' with he' | he'
  · obtain ⟨p, hp, hmem⟩ := mem_touchEntries.mp he'
    rw [PendingTouchUpdate.entries_sequence hmem]
    exact h.touch p hp e he
  · obtain ⟨w, hw, rfl⟩ := mem_wheelEntries.mp he'
    exact h.wheel w hw e he

theorem InOrder.move_ne_flushed (h : q.InOrder)
    {moved : SequencedControl} (hm : q.mouseMove = some moved)
    (he : e ∈ q.flushed) : moved.sequence ≠ e.sequence := by
  rcases mem_flushed.mp he with he | he
  · obtain ⟨p, hp, hmem⟩ := mem_touchEntries.mp he
    rw [PendingTouchUpdate.entries_sequence hmem]
    exact h.move_touch moved p hm hp
  · obtain ⟨w, hw, rfl⟩ := mem_wheelEntries.mp he
    exact h.move_wheel moved w hm hw

-- ---------------------------------- accept

/-- Accepting a message keeps the queues in order: it takes a newer
number than everything waiting, and a flush moves what is newer than the
deque to its end. -/
theorem InOrder.enqueued (h : q.InOrder) (hq : Enqueued q n m q')
    (hs : m.isSwitch = false)
    (hstart : m.isTouchStart = true → q.mouseWheel2D.isNone = true)
    (hold : ∀ e ∈ q.entries, e.sequence < n)
    (htouch : ∀ p, q.touchUpdate = some p → p.sequence < n) :
    q'.InOrder := by
  have hdeque : ∀ e ∈ q.reliable, e.sequence < n := fun e he =>
    hold e (mem_entries.mpr (Or.inl he))
  have hmove : ∀ moved, q.mouseMove = some moved → moved.sequence < n :=
    fun moved hm => hold moved (mem_entries.mpr (Or.inr (Or.inl hm)))
  have hwheel : ∀ w, q.mouseWheel2D = some w → w.sequence < n := by
    intro w hw
    refine hold w.entry (mem_entries.mpr ?_)
    exact Or.inr (Or.inr (Or.inr
      (Or.inl (mem_wheelEntries.mpr ⟨w, hw, rfl⟩))))
  cases hq with
  | flag => exact h
  | move hm =>
    refine { h with move := ?_, move_touch := ?_, move_wheel := ?_ }
    · intro moved hmoved e he
      cases hmoved
      have := hdeque e he
      show n ≠ e.sequence
      omega
    · intro moved p hmoved hp
      cases hmoved
      have := htouch p hp
      show n ≠ p.sequence
      omega
    · intro moved w hmoved hw
      cases hmoved
      have := hwheel w hw
      show n ≠ w.sequence
      omega
  | switch hs' => rw [hs'] at hs; cases hs
  | start x y hm =>
    have hnone : q.mouseWheel2D = none := by
      rw [hm] at hstart
      exact Option.isNone_iff_eq_none.mp (hstart rfl)
    refine { h with
      deque := ?_, touch := ?_, wheel := ?_, move := ?_
      move_touch := ?_, touch_wheel := ?_ }
    · refine List.pairwise_append.mpr
        ⟨h.deque, List.pairwise_singleton _ _, fun e he e' he' => ?_⟩
      rw [List.mem_singleton.mp he']
      exact before_of_lt (hdeque e he)
    · intro p hp; cases hp
    · intro w hw
      rw [show q.mouseWheel2D = some w from hw] at hnone
      cases hnone
    · intro moved hmoved e he
      rcases List.mem_append.mp he with he | he
      · exact h.move moved hmoved e he
      · rw [List.mem_singleton.mp he]
        exact Nat.ne_of_lt (hmove moved hmoved)
    · intro moved p _ hp; cases hp
    · intro p w hp; cases hp
  | touch p hm hp =>
    refine { h with touch := ?_, move_touch := ?_, touch_wheel := ?_ }
    · intro p' hp' e he
      cases hp'
      rw [hp]
      exact hdeque e he
    · intro moved p' hmoved hp'
      cases hp'
      rw [hp]
      exact Nat.ne_of_lt (hmove moved hmoved)
    · intro p' w hp' hw
      cases hp'
      rw [hp]
      exact Nat.ne_of_gt (hwheel w hw)
  | wheel w hm hw =>
    refine { h with wheel := ?_, move_wheel := ?_, touch_wheel := ?_ }
    · intro w' hw' e he
      cases hw'
      rw [hw]
      exact hdeque e he
    · intro moved w' hmoved hw'
      cases hw'
      rw [hw]
      exact Nat.ne_of_lt (hmove moved hmoved)
    · intro p w' hp hw'
      cases hw'
      rw [hw]
      exact Nat.ne_of_lt (htouch p hp)
  | reliable hr =>
    have hflush : ∀ e ∈ q.flushed, e.sequence < n := by
      intro e he
      refine hold e (mem_entries.mpr ?_)
      rcases mem_flushed.mp he with he | he
      · exact Or.inr (Or.inr (Or.inl he))
      · exact Or.inr (Or.inr (Or.inr (Or.inl he)))
    refine { h with
      deque := ?_, touch := ?_, wheel := ?_, move := ?_
      move_touch := ?_, move_wheel := ?_, touch_wheel := ?_ }
    · refine List.pairwise_append.mpr ⟨List.pairwise_append.mpr
        ⟨h.deque, h.flushed, fun e he e' he' =>
          before_of_lt (h.reliable_lt_flushed he he')⟩,
        List.pairwise_singleton _ _, fun e he e' he' => ?_⟩
      rw [List.mem_singleton.mp he']
      apply before_of_lt
      rcases List.mem_append.mp he with he | he
      · exact hdeque e he
      · exact hflush e he
    · intro p hp; cases hp
    · intro w hw; cases hw
    · intro moved hmoved e he
      rcases List.mem_append.mp he with he | he
      · rcases List.mem_append.mp he with he | he
        · exact h.move moved hmoved e he
        · exact h.move_ne_flushed hmoved he
      · rw [List.mem_singleton.mp he]
        exact Nat.ne_of_lt (hmove moved hmoved)
    · intro moved p _ hp; cases hp
    · intro moved w _ hw; cases hw
    · intro p w hp; cases hp

-- ------------------------------------- pop

/-- The oldest head is no newer than anything in the deque. -/
theorem InOrder.oldest_le (h : q.InOrder) (hold : q.Oldest n)
    (he : e ∈ q.reliable) : n ≤ e.sequence := by
  obtain ⟨head, rest, hq⟩ := List.exists_cons_of_ne_nil
    (List.ne_nil_of_mem he)
  have hhead := hold.le_reliable hq
  rw [hq] at he
  rcases List.mem_cons.mp he with rfl | he
  · exact hhead
  · have hdeque := h.deque
    rw [hq] at hdeque
    have hle := ((List.pairwise_cons.mp hdeque).1 e he).le
    omega

theorem Oldest.le_touch (h : q.Oldest n) {p : PendingTouchUpdate}
    (hp : q.touchUpdate = some p) : n ≤ p.sequence :=
  h .touchUpdate p.sequence (by simp [headSequence, hp])

theorem Oldest.le_wheel (h : q.Oldest n) {w : PendingMouseWheel2D}
    (hw : q.mouseWheel2D = some w) : n ≤ w.sequence :=
  h .mouseWheel2D w.sequence (by simp [headSequence, hw])

/-- A turn of the drain loop keeps the queues in order. -/
theorem InOrder.popped (h : q.InOrder) (hq : Popped q out q') : q'.InOrder := by
  cases hq with
  | reliable e rest hr =>
    have hmem : ∀ e' ∈ rest, e' ∈ q.reliable := by
      intro e' he'
      rw [hr]
      exact List.mem_cons_of_mem _ he'
    have hdeque := h.deque
    rw [hr] at hdeque
    exact { h with
      deque := (List.pairwise_cons.mp hdeque).2
      touch := fun p hp e' he' => h.touch p hp e' (hmem e' he')
      wheel := fun w hw e' he' => h.wheel w hw e' (hmem e' he')
      move := fun moved hm e' he' => h.move moved hm e' (hmem e' he') }
  | move e he =>
    refine { h with move := ?_, move_touch := ?_, move_wheel := ?_ }
    · intro moved hm; cases hm
    · intro moved p hm; cases hm
    · intro moved w hm; cases hm
  | touch p es rest hp old split hrest =>
    refine { h with touch := ?_, move_touch := ?_, touch_wheel := ?_ }
    · intro p' hp' e he
      rw [hrest p' hp']
      exact h.touch p hp e he
    · intro moved p' hm hp'
      rw [hrest p' hp']
      exact h.move_touch moved p hm hp
    · intro p' w hp' hw
      rw [hrest p' hp']
      exact h.touch_wheel p w hp hw
  | wheel w hw =>
    refine { h with wheel := ?_, move_wheel := ?_, touch_wheel := ?_ }
    · intro w' hw'; cases hw'
    · intro moved w' _ hw'; cases hw'
    · intro p w' _ hw'; cases hw'
  | switch e he => rw [h.switch] at he; cases he

/-- What a turn takes belongs before what it leaves. -/
theorem InOrder.popped_before (h : q.InOrder) (hq : Popped q out q') :
    ∃ es : List SequencedControl,
      out = es.map SequencedControl.delivery
        ∧ es.Pairwise SequencedControl.Before
        ∧ ∀ e ∈ es, ∀ e' ∈ q'.entries, e.Before e' := by
  have hnone := h.switch
  cases hq with
  | reliable e rest hr old =>
    refine ⟨[e], rfl, List.pairwise_singleton _ _, fun _ he e' he' => ?_⟩
    rw [List.mem_singleton.mp he]
    have hmem : e ∈ q.reliable := by rw [hr]; exact List.mem_cons_self
    rcases mem_entries.mp he' with hin | hin | hin | hin | hin
    · have hdeque := h.deque
      rw [hr] at hdeque
      exact (List.pairwise_cons.mp hdeque).1 e' hin
    · have hle := old.le_mouseMove hin
      have hne := h.move e' hin e hmem
      exact before_of_lt (by omega)
    · obtain ⟨p, hp, hin⟩ := mem_touchEntries.mp hin
      apply before_of_lt
      rw [PendingTouchUpdate.entries_sequence hin]
      exact h.touch p hp e hmem
    · obtain ⟨w, hw, rfl⟩ := mem_wheelEntries.mp hin
      exact before_of_lt (h.wheel w hw e hmem)
    · rw [show q.displaySwitch = some e' from hin] at hnone
      cases hnone
  | move e hm old =>
    refine ⟨[e], rfl, List.pairwise_singleton _ _, fun _ he e' he' => ?_⟩
    rw [List.mem_singleton.mp he]
    apply before_of_lt
    rcases mem_entries.mp he' with hin | hin | hin | hin | hin
    · have hle := h.oldest_le old hin
      have hne := h.move e hm e' hin
      omega
    · cases hin
    · obtain ⟨p, hp, hin⟩ := mem_touchEntries.mp hin
      rw [PendingTouchUpdate.entries_sequence hin]
      have hle := old.le_touch hp
      have hne := h.move_touch e p hm hp
      omega
    · obtain ⟨w, hw, rfl⟩ := mem_wheelEntries.mp hin
      have hle := old.le_wheel hw
      have hne := h.move_wheel e w hm hw
      show e.sequence < w.sequence
      omega
    · rw [show q.displaySwitch = some e' from hin] at hnone
      cases hnone
  | touch p es rest hp old split hrest =>
    have hpair := p.pairwise_entries
    rw [← split] at hpair
    obtain ⟨hes, -, hcross⟩ := List.pairwise_append.mp hpair
    refine ⟨es, rfl, hes, fun e he e' he' => ?_⟩
    have hseq : e.sequence = p.sequence := by
      apply PendingTouchUpdate.entries_sequence
      rw [← split]
      exact List.mem_append_left _ he
    rcases mem_entries.mp he' with hin | hin | hin | hin | hin
    · -- the deque is older than the slot, so it is empty
      have hle := h.oldest_le old hin
      have hlt := h.touch p hp e' hin
      omega
    · have hle := old.le_mouseMove hin
      have hne := h.move_touch e' p hin hp
      exact before_of_lt (by omega)
    · refine hcross e he e' ?_
      obtain ⟨p', hp', hin⟩ := mem_touchEntries.mp hin
      rw [show rest = some p' from hp']
      exact hin
    · obtain ⟨w, hw, rfl⟩ := mem_wheelEntries.mp hin
      have hle := old.le_wheel hw
      have hne := h.touch_wheel p w hp hw
      apply before_of_lt
      show e.sequence < w.sequence
      omega
    · rw [show q.displaySwitch = some e' from hin] at hnone
      cases hnone
  | wheel w hw old =>
    refine ⟨[w.entry], rfl, List.pairwise_singleton _ _,
      fun _ he e' he' => ?_⟩
    rw [List.mem_singleton.mp he]
    apply before_of_lt
    show w.sequence < e'.sequence
    rcases mem_entries.mp he' with hin | hin | hin | hin | hin
    · have hle := h.oldest_le old hin
      have hlt := h.wheel w hw e' hin
      omega
    · have hle := old.le_mouseMove hin
      have hne := h.move_wheel e' w hin hw
      omega
    · obtain ⟨p, hp, hin⟩ := mem_touchEntries.mp hin
      rw [PendingTouchUpdate.entries_sequence hin]
      have hle := old.le_touch hp
      have hne := h.touch_wheel p w hp hw
      omega
    · obtain ⟨w', hw', -⟩ := mem_wheelEntries.mp hin
      cases hw'
    · rw [show q.displaySwitch = some e' from hin] at hnone
      cases hnone
  | switch e he => rw [hnone] at he; cases he

end Queues

/-- What an accepted message leaves waiting was waiting before it, or
carries it under its number. -/
theorem Enqueued.carries {q q' : Queues} {n : Nat} {m : ControlMsg}
    (h : Enqueued q n m q') {e : SequencedControl}
    (he : e ∈ q'.entries) :
    e ∈ q.entries ∨ (e.sequence = n ∧ e.message.Carries m) := by
  rw [Queues.mem_entries] at he ⊢
  cases h with
  | flag => exact Or.inl he
  | move =>
    rcases he with h | h | h
    · exact Or.inl (Or.inl h)
    · cases h; exact Or.inr ⟨rfl, Or.inl rfl⟩
    · exact Or.inl (Or.inr (Or.inr h))
  | switch =>
    rcases he with h | h | h | h | h
    · exact Or.inl (Or.inl (List.mem_of_mem_filter h))
    · cases h
    · simp [Queues.touchEntries] at h
    · simp [Queues.wheelEntries] at h
    · cases h; exact Or.inr ⟨rfl, Or.inl rfl⟩
  | start =>
    rcases he with h | h | h | h | h
    · rcases List.mem_append.mp h with h | h
      · exact Or.inl (Or.inl h)
      · rw [List.mem_singleton.mp h]; exact Or.inr ⟨rfl, Or.inl rfl⟩
    · exact Or.inl (Or.inr (Or.inl h))
    · simp [Queues.touchEntries] at h
    · exact Or.inl (Or.inr (Or.inr (Or.inr (Or.inl h))))
    · exact Or.inl (Or.inr (Or.inr (Or.inr (Or.inr h))))
  | touch p hm hp =>
    rcases he with h | h | h | h
    · exact Or.inl (Or.inl h)
    · exact Or.inl (Or.inr (Or.inl h))
    · obtain ⟨p', hp', hmem⟩ := Queues.mem_touchEntries.mp h
      cases hp'
      exact Or.inr ⟨(PendingTouchUpdate.entries_sequence hmem).trans hp,
        Or.inr (Or.inr ⟨hm, PendingTouchUpdate.shape_of_mem_entries
          hmem⟩)⟩
    · exact Or.inl (Or.inr (Or.inr (Or.inr h)))
  | wheel w hm hw =>
    rcases he with h | h | h | h | h
    · exact Or.inl (Or.inl h)
    · exact Or.inl (Or.inr (Or.inl h))
    · exact Or.inl (Or.inr (Or.inr (Or.inl h)))
    · obtain ⟨w', hw', rfl⟩ := Queues.mem_wheelEntries.mp h
      cases hw'
      exact Or.inr ⟨hw, Or.inr (Or.inl ⟨hm, rfl⟩)⟩
    · exact Or.inl (Or.inr (Or.inr (Or.inr (Or.inr h))))
  | reliable =>
    rcases he with h | h | h | h | h
    · rw [List.mem_append, List.mem_append, Queues.mem_flushed] at h
      rcases h with (h | h | h) | h
      · exact Or.inl (Or.inl h)
      · exact Or.inl (Or.inr (Or.inr (Or.inl h)))
      · exact Or.inl (Or.inr (Or.inr (Or.inr (Or.inl h))))
      · rw [List.mem_singleton.mp h]; exact Or.inr ⟨rfl, Or.inl rfl⟩
    · exact Or.inl (Or.inr (Or.inl h))
    · simp [Queues.touchEntries] at h
    · simp [Queues.wheelEntries] at h
    · exact Or.inl (Or.inr (Or.inr (Or.inr (Or.inr h))))

-- =========================== the invariant

namespace Ledger

variable {l l' : Ledger} {m : ControlMsg} {q' : Queues} {n : Nat}

/-- Some accepted message is what `d` carries under number `n`. -/
def Carried (l : Ledger) (n : Nat) (d : ControlMsg) : Prop :=
  ∃ m, ⟨n, m⟩ ∈ l.accepted ∧ d.Carries m

/-- No component of entry `n` is older than an accepted reliable
message: the slot was emptied by each of those. -/
def Fresh (l : Ledger) (n : Nat) : Prop :=
  ∀ i ∈ l.merged n, ∀ e ∈ l.accepted, e.message.isReliable = true →
    e.sequence < i

/-- No component of entry `n` is on the other side of a reliable
message. -/
def Whole (l : Ledger) (n : Nat) : Prop :=
  ∀ i ∈ l.merged n, ∀ e ∈ l.accepted, e.message.isReliable = true →
    i < e.sequence → n < e.sequence

/-- What every rule preserves under `OrderGuard`. -/
structure OrderInv (l : Ledger) : Prop where
  wellKept : l.WellKept
  queues : l.queues.InOrder
  accepted : l.accepted.Pairwise (·.sequence < ·.sequence)
  delivered : l.delivered.Pairwise Delivery.Ahead
  /-- Whatever is out belongs before whatever waits. -/
  before : ∀ d ∈ l.delivered, ∀ e ∈ l.queues.entries,
    d.Ahead e.delivery
  waiting : ∀ e ∈ l.queues.entries, l.Carried e.sequence e.message
  out : ∀ d ∈ l.delivered, ∀ n, d.sequence = some n →
    l.Carried n d.message
  last : ∀ n, n ∈ l.merged n ∧ ∀ i ∈ l.merged n, i ≤ n
  whole : ∀ e ∈ l.accepted, l.Whole e.sequence
  touch : ∀ p, l.queues.touchUpdate = some p → l.Fresh p.sequence
  wheel : ∀ w, l.queues.mouseWheel2D = some w → l.Fresh w.sequence

theorem orderInv_start (gates : ControlInbox) :
    (Trace.start gates).ledger.OrderInv where
  wellKept := wellKept_start gates
  queues :=
    { deque := .nil
      touch := by intro p hp; cases hp
      wheel := by intro w hw; cases hw
      move := by intro moved hm; cases hm
      move_touch := by intro moved p hm; cases hm
      move_wheel := by intro moved w hm; cases hm
      touch_wheel := by intro p w hp; cases hp
      switch := rfl }
  accepted := .nil
  delivered := .nil
  before := by intro d hd; cases hd
  waiting := by intro e he; cases he
  out := by intro d hd; cases hd
  last := by
    intro n
    show n ∈ [n] ∧ ∀ i ∈ [n], i ≤ n
    simp
  whole := by intro e he; cases he
  touch := by intro p hp; cases hp
  wheel := by intro w hw; cases hw

theorem Carried.accepting {d : ControlMsg} (h : l.Carried n d) :
    (l.accepting m q').Carried n d := by
  obtain ⟨m', hm', hd⟩ := h
  exact ⟨m', List.mem_append_left _ hm', hd⟩

/-- The wheel slot's number was handed out. -/
theorem WellKept.wheel_lt (w : l.WellKept) {p : PendingMouseWheel2D}
    (hp : l.queues.mouseWheel2D = some p) : p.sequence < l.next := by
  refine w.queued_lt p.entry (Queues.mem_entries.mpr ?_)
  exact Or.inr (Or.inr (Or.inr
    (Or.inl (Queues.mem_wheelEntries.mpr ⟨p, hp, rfl⟩))))

/-- A message that folds is not reliable, and it folds into a slot whose
components are fresh. -/
private theorem OrderInv.folds (h : l.OrderInv) {old : Nat}
    (hf : foldsInto l.queues m = some old) :
    m.isReliable = false ∧ old < l.next ∧ l.Fresh old := by
  unfold foldsInto at hf
  split at hf
  case isTrue ht =>
    obtain ⟨p, hp, rfl⟩ := Option.map_eq_some_iff.mp hf
    exact ⟨ControlMsg.isReliable_eq_false (Or.inr (Or.inl ht)),
      h.wellKept.touch_lt p hp, h.touch p hp⟩
  case isFalse =>
    split at hf
    case isTrue hw =>
      obtain ⟨p, hp, rfl⟩ := Option.map_eq_some_iff.mp hf
      exact ⟨ControlMsg.isReliable_eq_false (Or.inr (Or.inr hw)),
        h.wellKept.wheel_lt hp, h.wheel p hp⟩
    case isFalse => cases hf

/-- The components of the number just handed out: itself, and those of
the slot it was folded into. -/
private theorem OrderInv.mem_merge (h : l.OrderInv) {i : Nat}
    (hi : i ∈ (l.accepting m q').merged l.next) :
    i = l.next ∨ (m.isReliable = false ∧ i < l.next
      ∧ ∀ e ∈ l.accepted, e.message.isReliable = true →
          e.sequence < i) := by
  change i ∈ merge l.merged l.queues l.next m l.next at hi
  rw [merge, if_pos rfl] at hi
  cases hf : foldsInto l.queues m with
  | none =>
    rw [hf] at hi
    exact Or.inl (List.mem_singleton.mp hi)
  | some old =>
    rw [hf] at hi
    obtain ⟨hrel, hlt, hfresh⟩ := h.folds hf
    rcases List.mem_append.mp hi with hi | hi
    · have hle := (h.last old).2 i hi
      exact Or.inr ⟨hrel, by omega, hfresh i hi⟩
    · exact Or.inl (List.mem_singleton.mp hi)

theorem merged_accepting_of_ne (hn : n ≠ l.next) :
    (l.accepting m q').merged n = l.merged n :=
  if_neg hn

/-- A slot left alone by a message that is not reliable stays fresh. -/
private theorem Fresh.accepting (h : l.Fresh n) (hn : n < l.next)
    (hr : m.isReliable = false) : (l.accepting m q').Fresh n := by
  intro i hi e he hrel
  rw [merged_accepting_of_ne (Nat.ne_of_lt hn)] at hi
  rcases List.mem_append.mp he with he | he
  · exact h i hi e he hrel
  · rw [List.mem_singleton.mp he] at hrel
    rw [show m.isReliable = true from hrel] at hr
    cases hr

/-- So does the slot the message went into. -/
private theorem OrderInv.fresh_next (h : l.OrderInv)
    (hr : m.isReliable = false) :
    (l.accepting m q').Fresh l.next := by
  intro i hi e he hrel
  rcases List.mem_append.mp he with he | he
  · rcases h.mem_merge hi with rfl | ⟨-, -, hfresh⟩
    · exact h.wellKept.accepted_lt e he
    · exact hfresh e he hrel
  · rw [List.mem_singleton.mp he] at hrel
    rw [show m.isReliable = true from hrel] at hr
    cases hr

/-- Accepting a message never puts a component of an entry on the other
side of a reliable one. -/
private theorem OrderInv.whole_accepting (h : l.OrderInv)
    {e' : SequencedControl} (he' : e' ∈ (l.accepting m q').accepted) :
    (l.accepting m q').Whole e'.sequence := by
  intro i hi e he hrel hie
  rcases List.mem_append.mp he' with hold | hnew
  case inr =>
    rw [List.mem_singleton.mp hnew] at hi ⊢
    rcases List.mem_append.mp he with he | he
    · have hlt := h.wellKept.accepted_lt e he
      rcases h.mem_merge hi with rfl | ⟨-, -, hfresh⟩
      · omega
      · have hei := hfresh e he hrel
        omega
    · rw [List.mem_singleton.mp he] at hrel hie
      rcases h.mem_merge hi with rfl | ⟨hr, -⟩
      · exact absurd hie (Nat.lt_irrefl _)
      · rw [show m.isReliable = true from hrel] at hr
        cases hr
  case inl =>
    have hlt := h.wellKept.accepted_lt e' hold
    rw [merged_accepting_of_ne (Nat.ne_of_lt hlt)] at hi
    rcases List.mem_append.mp he with he | he
    · exact h.whole e' hold i hi e he hrel hie
    · rw [List.mem_singleton.mp he]
      exact hlt

private theorem OrderInv.last_accepting (h : l.OrderInv) :
    n ∈ (l.accepting m q').merged n
      ∧ ∀ i ∈ (l.accepting m q').merged n, i ≤ n := by
  by_cases hnew : n = l.next
  · subst hnew
    constructor
    · show l.next ∈ merge l.merged l.queues l.next m l.next
      rw [merge, if_pos rfl]
      cases foldsInto l.queues m <;> simp
    · intro i hi
      rcases h.mem_merge hi with rfl | ⟨-, hlt, -⟩
      · exact Nat.le_refl _
      · exact Nat.le_of_lt hlt
  · rw [merged_accepting_of_ne hnew]
    exact h.last n

/-- The slots after an accepted message are fresh: a reliable one
empties both, and a start empties the one the guard does not. -/
private theorem OrderInv.slots (h : l.OrderInv) (hg : l.OrderGuard m)
    (hq : Enqueued l.queues l.next m q') :
    (∀ p, q'.touchUpdate = some p → (l.accepting m q').Fresh p.sequence)
      ∧ ∀ w, q'.mouseWheel2D = some w →
          (l.accepting m q').Fresh w.sequence := by
  have htouch : m.isReliable = false → ∀ p,
      l.queues.touchUpdate = some p →
      (l.accepting m q').Fresh p.sequence := fun hr p hp =>
    (h.touch p hp).accepting (h.wellKept.touch_lt p hp) hr
  have hwheel : m.isReliable = false → ∀ w,
      l.queues.mouseWheel2D = some w →
      (l.accepting m q').Fresh w.sequence := fun hr w hw =>
    (h.wheel w hw).accepting (h.wellKept.wheel_lt hw) hr
  cases hq with
  | flag hr => exact ⟨htouch hr, hwheel hr⟩
  | move hm =>
    have hr := ControlMsg.isReliable_eq_false (Or.inl hm)
    exact ⟨htouch hr, hwheel hr⟩
  | switch hs => rw [hg.1] at hs; cases hs
  | start x y hm =>
    have hnone : l.queues.mouseWheel2D = none := by
      apply Option.isNone_iff_eq_none.mp
      apply hg.2
      rw [hm]
      rfl
    refine ⟨fun p hp => (by cases hp), fun w hw => ?_⟩
    rw [show l.queues.mouseWheel2D = some w from hw] at hnone
    cases hnone
  | touch p hm hp =>
    have hr := ControlMsg.isReliable_eq_false (Or.inr (Or.inl hm))
    refine ⟨fun p' hp' => ?_, hwheel hr⟩
    cases hp'
    rw [hp]
    exact h.fresh_next hr
  | wheel w hm hw =>
    have hr := ControlMsg.isReliable_eq_false (Or.inr (Or.inr hm))
    refine ⟨htouch hr, fun w' hw' => ?_⟩
    cases hw'
    rw [hw]
    exact h.fresh_next hr
  | reliable =>
    exact ⟨fun p hp => (by cases hp), fun w hw => (by cases hw)⟩

private theorem OrderInv.accept (h : l.OrderInv) (hg : l.OrderGuard m)
    (hq : Enqueued l.queues l.next m q') :
    (l.accepting m q').OrderInv where
  wellKept := h.wellKept.accept hq
  queues := h.queues.enqueued hq hg.1 hg.2 h.wellKept.queued_lt
    h.wellKept.touch_lt
  accepted := by
    refine List.pairwise_append.mpr
      ⟨h.accepted, List.pairwise_singleton _ _, fun e he e' he' => ?_⟩
    rw [List.mem_singleton.mp he']
    exact h.wellKept.accepted_lt e he
  delivered := h.delivered
  before := by
    intro d hd e he
    rcases hq.mem_entries he with he | he
    · exact h.before d hd e he
    · intro n n' hn hn'
      cases hn'
      left
      rw [he.1]
      exact h.wellKept.delivered_lt d hd n hn
  waiting := by
    intro e he
    rcases hq.carries he with he | ⟨hseq, hcarries⟩
    · exact (h.waiting e he).accepting
    · refine ⟨m, ?_, hcarries⟩
      rw [hseq]
      exact List.mem_append_right _ (List.mem_singleton.mpr rfl)
  out := fun d hd n hn => (h.out d hd n hn).accepting
  last := fun n => h.last_accepting
  whole := fun e he => h.whole_accepting he
  touch := (h.slots hg hq).1
  wheel := (h.slots hg hq).2

private theorem OrderInv.pop (h : l.OrderInv)
    (hq : Popped l.queues out q') : (l.popping out q').OrderInv := by
  obtain ⟨es, hout, hes, hbefore⟩ := h.queues.popped_before hq
  have hin : ∀ e ∈ es, e ∈ l.queues.entries := by
    intro e he
    obtain ⟨e', he', hdelivery⟩ := hq.mem_out
      (show e.delivery ∈ out by rw [hout]; exact List.mem_map_of_mem he)
    rwa [SequencedControl.delivery_inj hdelivery]
  refine {
    wellKept := h.wellKept.pop hq
    queues := h.queues.popped hq
    accepted := h.accepted
    delivered := ?_, before := ?_
    waiting := fun e he => h.waiting e (hq.mem_entries he)
    out := ?_
    last := h.last
    whole := h.whole
    touch := ?_, wheel := ?_ }
  · refine List.pairwise_append.mpr ⟨h.delivered, ?_, ?_⟩
    · rw [hout]
      exact List.pairwise_map.mpr (hes.imp SequencedControl.Before.ahead)
    · intro d hd d' hd'
      rw [hout] at hd'
      obtain ⟨e, he, rfl⟩ := List.mem_map.mp hd'
      exact h.before d hd e (hin e he)
  · intro d hd e he
    rcases List.mem_append.mp hd with hd | hd
    · exact h.before d hd e (hq.mem_entries he)
    · rw [hout] at hd
      obtain ⟨e', he', rfl⟩ := List.mem_map.mp hd
      exact (hbefore e' he' e he).ahead
  · intro d hd n hn
    rcases List.mem_append.mp hd with hd | hd
    · exact h.out d hd n hn
    · rw [hout] at hd
      obtain ⟨e, he, rfl⟩ := List.mem_map.mp hd
      cases hn
      exact h.waiting e (hin e he)
  · intro p hp
    cases hq with
    | reliable | move | wheel | switch => exact h.touch p hp
    | touch p' es rest hp' old split hrest =>
      rw [hrest p hp]
      exact h.touch p' hp'
  · intro w hw
    cases hq with
    | reliable | move | touch | switch => exact h.wheel w hw
    | wheel => cases hw

/-- Every rule preserves the invariant. -/
theorem Step.orderInv (h : Step OrderGuard l l') (hinv : l.OrderInv) :
    l'.OrderInv := by
  have hkept := h.wellKept hinv.wellKept
  cases h with
  | accept m q' hn hg hq => exact hinv.accept hg hq
  | skip hn =>
    exact { hinv with wellKept := hkept }
  | pop out q' hq => exact hinv.pop hq
  | flag d hd =>
    have hnone : ∀ n, d.sequence ≠ some n := by
      intro n hn
      rw [hd.1] at hn
      cases hn
    refine { hinv with
      wellKept := hkept, delivered := ?_, before := ?_, out := ?_ }
    · refine List.pairwise_append.mpr
        ⟨hinv.delivered, List.pairwise_singleton _ _, ?_⟩
      intro d' _ d'' hd'' n n' _ hn'
      rw [List.mem_singleton.mp hd''] at hn'
      exact absurd hn' (hnone n')
    · intro d' hd' e he
      rcases List.mem_append.mp hd' with hd' | hd'
      · exact hinv.before d' hd' e he
      · intro n _ hn
        rw [List.mem_singleton.mp hd'] at hn
        exact absurd hn (hnone n)
    · intro d' hd' n hn
      rcases List.mem_append.mp hd' with hd' | hd'
      · exact hinv.out d' hd' n hn
      · rw [List.mem_singleton.mp hd'] at hn
        exact absurd hn (hnone n)

end Ledger

-- =================================== flags

/-- A delivery without a number is one of the two flags. -/
theorem Trace.flags_step {t : Trace} {op : Op}
    (h : ∀ d ∈ t.delivered, d.sequence = none →
      d.message.isFlag = true) :
    ∀ d ∈ (t.step op).delivered, d.sequence = none →
      d.message.isFlag = true := by
  cases op with
  | enqueue m =>
    show ∀ d ∈ (t.stepEnqueue m).delivered, _
    unfold stepEnqueue
    dsimp only
    split
    · exact h
    · exact h
  | takeBatch limit =>
    have hkeeps : ControlInboxState.DrainKeeps fun _ log =>
        ∀ d ∈ log, d.sequence = none → d.message.isFlag = true := by
      constructor
      · intro s log room out s' hlog hp d hd hnone
        rcases List.mem_append.mp hd with hd | hd
        · exact hlog d hd hnone
        · obtain ⟨e, -, rfl⟩ :=
            (ControlInboxState.popOrdered_popped hp).1.mem_out hd
          cases hnone
      · intro s log hlog d hd hnone
        rcases List.mem_append.mp hd with hd | hd
        · exact hlog d hd hnone
        · rw [List.mem_singleton.mp hd]; rfl
      · intro s log level hlog d hd hnone
        rcases List.mem_append.mp hd with hd | hd
        · exact hlog d hd hnone
        · rw [List.mem_singleton.mp hd]; rfl
      · exact fun s log hits hlog => hlog
    exact hkeeps.takeBatch limit h

-- ============================= the results

/-- Messages are delivered in the order in which the last component of
each was accepted, in every run without a display switch that accepts no
touch start over a waiting wheel delta. -/
theorem delivery_ordered (gates : ControlInbox) (ops : List Op)
    (h : Meets Trace.step
      (Trace.Guarded fun t m => t.ledger.OrderGuard m)
      (Trace.start gates) ops) :
    (exec Trace.step (Trace.start gates) ops).InOrder := by
  have hinv := reflTransGen_invariant (fun _ _ h => h.orderInv)
    (Trace.simulates h) (Ledger.orderInv_start gates)
  have hflags : ∀ d ∈ (exec Trace.step (Trace.start gates) ops).delivered,
      d.sequence = none → d.message.isFlag = true := by
    refine @exec_invariant _ _ Trace.step (fun t => ∀ d ∈ t.delivered,
      d.sequence = none → d.message.isFlag = true)
      (fun _ _ h => Trace.flags_step h) _ ops ?_
    intro d hd
    cases hd
  refine ⟨hinv.accepted, hinv.delivered, hflags, hinv.out,
    fun _ _ n _ => hinv.last n, fun d hd n hn => ?_⟩
  obtain ⟨m, hm, -⟩ := hinv.out d hd n hn
  exact hinv.whole ⟨n, m⟩ hm

/-- A wheel delta and a movement waiting when a button is pressed, in
batches of one. -/
theorem delivery_ordered_press :
    (exec Trace.step (Trace.start {})
      [.enqueue (.mouseWheel2D 0 5), .enqueue (.mouseMove 1 1),
        .enqueue (.mouseWheel2D 0 2), .enqueue (.mouseEvent 1 1 1 true),
        .takeBatch 1, .enqueue .refreshVideo, .takeBatch 1, .takeBatch 1,
        .takeBatch 8]).InOrder :=
  delivery_ordered {} _ (by decide)

/-- Three runs that deliver two of their messages against the order in
which they were accepted. A refresh goes out after the key accepted
after it; a scale goes out after the wheel delta accepted after it,
because its slot took the number of the later pan; and a wheel delta
goes out after the start accepted over it. -/
theorem delivery_reordered :
    let flag : List Op :=
      [.enqueue .refreshVideo, .enqueue (.keyEvent 4 true), .takeBatch 8]
    let slot : List Op :=
      [.enqueue (.touchPanStart 0 0), .enqueue (.touchScale 2000),
        .enqueue (.mouseWheel2D 0 5), .enqueue (.touchPanUpdate 3 3),
        .takeBatch 8]
    let start : List Op :=
      [.enqueue (.mouseWheel2D 0 5), .enqueue (.touchPanStart 0 0),
        .enqueue (.keyEvent 4 true), .takeBatch 8]
    (Meets Trace.step (Trace.Guarded fun t m => t.ledger.OrderGuard m)
        (Trace.start {}) flag
      ∧ (exec Trace.step (Trace.start {}) flag).accepted
        = [⟨1, .refreshVideo⟩, ⟨2, .keyEvent 4 true⟩]
      ∧ (exec Trace.step (Trace.start {}) flag).delivered.map (·.message)
        = [.keyEvent 4 true, .refreshVideo])
    ∧ (Meets Trace.step (Trace.Guarded fun t m => t.ledger.OrderGuard m)
        (Trace.start {}) slot
      ∧ (exec Trace.step (Trace.start {}) slot).accepted
        = [⟨1, .touchPanStart 0 0⟩, ⟨2, .touchScale 2000⟩,
            ⟨3, .mouseWheel2D 0 5⟩, ⟨4, .touchPanUpdate 3 3⟩]
      ∧ (exec Trace.step (Trace.start {}) slot).delivered.map (·.message)
        = [.touchPanStart 0 0, .mouseWheel2D 0 5, .touchScale 2000,
            .touchPanUpdate 3 3])
    ∧ (exec Trace.step (Trace.start {}) start).accepted
        = [⟨1, .mouseWheel2D 0 5⟩, ⟨2, .touchPanStart 0 0⟩,
            ⟨3, .keyEvent 4 true⟩]
      ∧ (exec Trace.step (Trace.start {}) start).delivered.map (·.message)
        = [.touchPanStart 0 0, .mouseWheel2D 0 5, .keyEvent 4 true] := by
  refine ⟨⟨?_, ?_, ?_⟩, ⟨?_, ?_, ?_⟩, ?_, ?_⟩
  all_goals decide

end RemoteDesk.Inbox
