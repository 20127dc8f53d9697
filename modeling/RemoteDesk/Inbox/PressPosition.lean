/-
A button press and the movement that positions it.

The inbox keeps one mouse position: a new `MouseMove` replaces the one
in the slot and takes a new number. A press queued in between keeps its
own number, so the movement it was made after can be replaced from under
it, and the press then goes out first, at the previous position
(`press_overtaken`).

`press_positioned` is the exact complement: a press is preceded by its
movement in every run that never accepts a `MouseMove` while the slot
holds the movement of a queued press.
-/
import RemoteDesk.Inbox.Trace

namespace RemoteDesk.Inbox

open Lib

-- =========================== the statement

/-- `m` is the last movement accepted before number `n`, and no reliable
message was accepted since. -/
def LastMoveBefore (accepted : List SequencedControl)
    (m : SequencedControl) (n : Nat) : Prop :=
  m ∈ accepted ∧ m.message.isMove = true ∧ m.sequence < n
    ∧ ∀ e ∈ accepted, m.sequence < e.sequence → e.sequence < n →
        e.message.isMove = false ∧ e.message.isReliable = false

instance (accepted : List SequencedControl) (m : SequencedControl)
    (n : Nat) : Decidable (LastMoveBefore accepted m n) :=
  inferInstanceAs (Decidable (_ ∧ _ ∧ _ ∧ _))

/-- Delivered after `pre`, a button message is one of the accepted, and
the movement before it is among `pre`. -/
def PositionedAt (accepted : List SequencedControl)
    (pre : List Delivery) (d : Delivery) : Prop :=
  d.message.isButton = true →
    ∃ n, d.sequence = some n ∧ ⟨n, d.message⟩ ∈ accepted
      ∧ ∀ m, LastMoveBefore accepted m n → m.delivery ∈ pre

/-- No button message was delivered ahead of its movement. -/
def Trace.PressPositioned (t : Trace) : Prop :=
  EveryAt (PositionedAt t.accepted) t.delivered

/-- The slot holds the movement of a queued press: a `MouseMove` accepted
now would replace it. -/
def Ledger.HoldsPosition (l : Ledger) : Prop :=
  ∃ held ∈ l.queues.mouseMove, ∃ b ∈ l.queues.reliable,
    b.message.isButton = true ∧ LastMoveBefore l.accepted held b.sequence

instance (l : Ledger) : Decidable l.HoldsPosition :=
  inferInstanceAs (Decidable (∃ _ ∈ l.queues.mouseMove, _))

/-- No display switch, and no movement accepted over the position of a
queued press. -/
def Ledger.PressGuard (l : Ledger) (m : ControlMsg) : Prop :=
  m.isSwitch = false ∧ (m.isMove = true → ¬ l.HoldsPosition)

instance (l : Ledger) (m : ControlMsg) : Decidable (l.PressGuard m) :=
  inferInstanceAs (Decidable (_ ∧ _))

-- ========================== last movements

section LastMove

variable {accepted : List SequencedControl} {m e : SequencedControl}
  {n : Nat}

/-- A later message says nothing about the movements before `n`. -/
theorem lastMoveBefore_snoc_of_le (hn : n ≤ e.sequence) :
    LastMoveBefore (accepted ++ [e]) m n ↔ LastMoveBefore accepted m n := by
  constructor
  · rintro ⟨hm, hmove, hlt, hno⟩
    refine ⟨?_, hmove, hlt, fun x hx => hno x (List.mem_append_left _ hx)⟩
    rcases List.mem_append.mp hm with hm | hm
    · exact hm
    · rw [List.mem_singleton.mp hm] at hlt; omega
  · rintro ⟨hm, hmove, hlt, hno⟩
    refine ⟨List.mem_append_left _ hm, hmove, hlt, fun x hx hmx hxn => ?_⟩
    rcases List.mem_append.mp hx with hx | hx
    · exact hno x hx hmx hxn
    · rw [List.mem_singleton.mp hx] at hxn; omega

/-- Right after `e`: the last movement is `e` itself, or `e` is neither
a movement nor reliable and the last movement is the old one. -/
theorem lastMoveBefore_snoc_succ
    (hold : ∀ x ∈ accepted, x.sequence < e.sequence)
    (h : LastMoveBefore (accepted ++ [e]) m (e.sequence + 1)) :
    (m = e ∧ e.message.isMove = true)
      ∨ (e.message.isMove = false ∧ e.message.isReliable = false
        ∧ LastMoveBefore accepted m e.sequence) := by
  obtain ⟨hm, hmove, -, hno⟩ := h
  rcases List.mem_append.mp hm with hm | hm
  · right
    obtain ⟨h₁, h₂⟩ := hno e (by simp) (hold m hm) (Nat.lt_succ_self _)
    exact ⟨h₁, h₂, hm, hmove, hold m hm, fun x hx hmx hxe =>
      hno x (List.mem_append_left _ hx) hmx (Nat.lt_succ_of_lt hxe)⟩
  · left
    rw [List.mem_singleton.mp hm] at hmove ⊢
    exact ⟨rfl, hmove⟩

end LastMove

-- =========================== the invariant

namespace Ledger

/-- The movement `m` is out, or still in the slot. -/
def MoveKept (l : Ledger) (m : SequencedControl) : Prop :=
  m.delivery ∈ l.delivered ∨ l.queues.mouseMove = some m

/-- What every rule preserves under `PressGuard`. `pending` is the
property of the presses still queued; `latest` is the same property of
the press that might be accepted next. -/
structure PressInv (l : Ledger) : Prop where
  wellKept : l.WellKept
  queued : ∀ b ∈ l.queues.reliable, b.message.isButton = true →
    b ∈ l.accepted
  pending : ∀ b ∈ l.queues.reliable, b.message.isButton = true →
    ∀ m, LastMoveBefore l.accepted m b.sequence → l.MoveKept m
  latest : ∀ m, LastMoveBefore l.accepted m l.next → l.MoveKept m
  log : EveryAt (PositionedAt l.accepted) l.delivered

variable {l l' : Ledger}

theorem pressInv_start (gates : ControlInbox) :
    (Trace.start gates).ledger.PressInv where
  wellKept := wellKept_start gates
  queued := by intro b hb; cases hb
  pending := by intro b hb; cases hb
  latest := by intro m hm; cases hm.1
  log := everyAt_nil _

variable {m : ControlMsg} {q' : Queues}

/-- The buttons in the deque after an accepted message: the old ones, or
the message itself. -/
private theorem Enqueued.button {q : Queues} {n : Nat} (hq : Enqueued q n m q')
    (hs : m.isSwitch = false) {b : SequencedControl} (hb : b ∈ q'.reliable)
    (hbutton : b.message.isButton = true) : b ∈ q.reliable ∨ b = ⟨n, m⟩ := by
  obtain ⟨es, hes, hnew⟩ := hq.reliable_append hs
  rw [hes] at hb
  rcases List.mem_append.mp hb with hb | hb
  · exact Or.inl hb
  · rcases hnew b hb with rfl | hb
    · exact Or.inr rfl
    · rw [(Queues.kind_of_mem_flushed hb).1] at hbutton; cases hbutton

/-- The slot after an accepted message that is not a switch: the
message, if it is a movement, and the old slot otherwise. -/
private theorem Enqueued.slot {q : Queues} {n : Nat} (hq : Enqueued q n m q')
    (hs : m.isSwitch = false) :
    (m.isMove = true ∧ q'.mouseMove = some ⟨n, m⟩)
      ∨ (m.isMove = false ∧ q'.mouseMove = q.mouseMove) := by
  cases hq with
  | flag hr hm => exact Or.inr ⟨hm, rfl⟩
  | move hm => exact Or.inl ⟨hm, rfl⟩
  | switch hs' => rw [hs'] at hs; cases hs
  | start x y hm => subst hm; exact Or.inr ⟨rfl, rfl⟩
  | touch p hm =>
    exact Or.inr ⟨ControlMsg.isMove_eq_false (by simp [hm]), rfl⟩
  | wheel p hm =>
    exact Or.inr ⟨ControlMsg.isMove_eq_false (by simp [hm]), rfl⟩
  | reliable hr =>
    exact Or.inr ⟨ControlMsg.isMove_eq_false (by simp [hr]), rfl⟩

/-- Accepting a message keeps a kept movement, unless the message
replaces it. -/
private theorem PressInv.accept (h : l.PressInv) (hg : l.PressGuard m)
    (hq : Enqueued l.queues l.next m q') : (l.accepting m q').PressInv := by
  have hslot := Enqueued.slot hq hg.1
  refine ⟨h.wellKept.accept hq, ?_, ?_, ?_, ?_⟩
  · intro b hb hbutton
    rcases Enqueued.button hq hg.1 hb hbutton with hb | rfl
    · exact List.mem_append_left _ (h.queued b hb hbutton)
    · exact List.mem_append_right _ (List.mem_singleton.mpr rfl)
  · intro b hb hbutton p hp
    rcases Enqueued.button hq hg.1 hb hbutton with hb | rfl
    · -- an older press: its movement is replaced only against the guard
      have hbn : b.sequence ≤ l.next := Nat.le_of_lt
        (h.wellKept.accepted_lt b (h.queued b hb hbutton))
      replace hp := (lastMoveBefore_snoc_of_le (e := ⟨l.next, m⟩) hbn).mp hp
      rcases h.pending b hb hbutton p hp with hout | hheld
      · exact Or.inl hout
      · rcases hslot with ⟨hmove, -⟩ | ⟨-, hkeep⟩
        · exact absurd ⟨p, hheld, b, hb, hbutton, hp⟩ (hg.2 hmove)
        · exact Or.inr (hkeep.trans hheld)
    · -- the accepted message is the press: the latest movement is kept
      replace hp := (lastMoveBefore_snoc_of_le (Nat.le_refl _)).mp hp
      rcases h.latest p hp with hout | hheld
      · exact Or.inl hout
      · rcases hslot with ⟨hmove, -⟩ | ⟨-, hkeep⟩
        · rw [ControlMsg.isMove_eq_false (Or.inl hbutton)] at hmove
          cases hmove
        · exact Or.inr (hkeep.trans hheld)
  · intro p hp
    rcases lastMoveBefore_snoc_succ h.wellKept.accepted_lt hp with
      ⟨rfl, hmove⟩ | ⟨hmove, -, hp⟩
    · rcases hslot with ⟨-, hnew⟩ | ⟨hno, -⟩
      · exact Or.inr hnew
      · rw [hno] at hmove; cases hmove
    · rcases h.latest p hp with hout | hheld
      · exact Or.inl hout
      · rcases hslot with ⟨hmove', -⟩ | ⟨-, hkeep⟩
        · rw [hmove] at hmove'; cases hmove'
        · exact Or.inr (hkeep.trans hheld)
  · refine h.log.mono fun pre d _ hd hpos hbutton => ?_
    obtain ⟨n, hn, hacc, hbefore⟩ := hpos hbutton
    refine ⟨n, hn, List.mem_append_left _ hacc, fun p hp => ?_⟩
    have hlt := Nat.le_of_lt (h.wellKept.delivered_lt d hd n hn)
    exact hbefore p
      ((lastMoveBefore_snoc_of_le (e := ⟨l.next, m⟩) hlt).mp hp)

/-- A turn of the drain loop hands a kept movement out or leaves it. -/
private theorem MoveKept.pop {m : SequencedControl} (h : l.MoveKept m)
    {out : List Delivery} (hq : Popped l.queues out q') :
    (l.popping out q').MoveKept m := by
  rcases h with hout | hheld
  · exact Or.inl (List.mem_append_left _ hout)
  · cases hq with
    | reliable | touch | wheel | switch => exact Or.inr hheld
    | move e he =>
      left
      rw [Option.some.inj (hheld.symm.trans he)]
      exact List.mem_append_right _ (List.mem_singleton.mpr rfl)

/-- The oldest head is popped, so a press goes out after the movement in
the slot. -/
private theorem PressInv.pop (h : l.PressInv) {out : List Delivery}
    (hq : Popped l.queues out q') : (l.popping out q').PressInv := by
  have hrest : ∀ b ∈ q'.reliable, b ∈ l.queues.reliable := by
    intro b hb
    cases hq with
    | reliable e rest hq => rw [hq]; exact List.mem_cons_of_mem _ hb
    | move | touch | wheel | switch => exact hb
  refine ⟨h.wellKept.pop hq, fun b hb => h.queued b (hrest b hb),
    fun b hb hbutton m hm => (h.pending b (hrest b hb) hbutton m hm).pop hq,
    fun m hm => (h.latest m hm).pop hq,
    h.log.append fun d hd pre _ hbutton => ?_⟩
  obtain ⟨e, he, rfl, old⟩ := h.wellKept.popped_button hq hd hbutton
  refine ⟨e.sequence, rfl, h.queued e he hbutton, fun m hm => ?_⟩
  rcases h.pending e he hbutton m hm with hout | hheld
  · exact List.mem_append_left _ hout
  · exact absurd hm.2.2.1 (Nat.not_lt.mpr (old.le_mouseMove hheld))

/-- Every rule preserves the invariant. -/
theorem Step.pressInv (h : Step PressGuard l l') (hinv : l.PressInv) :
    l'.PressInv := by
  have hkept := h.wellKept hinv.wellKept
  cases h with
  | accept m q' hn hg hq => exact hinv.accept hg hq
  | skip hn =>
    refine ⟨hkept, hinv.queued, hinv.pending, fun m hm => ?_, hinv.log⟩
    refine hinv.latest m ⟨hm.1, hm.2.1, hinv.wellKept.accepted_lt m hm.1,
      fun e he hme _ => hm.2.2.2 e he hme ?_⟩
    exact Nat.lt_succ_of_lt (hinv.wellKept.accepted_lt e he)
  | pop out q' hq => exact hinv.pop hq
  | flag d hd =>
    have hmem : ∀ m, l.MoveKept m → MoveKept
        { l with delivered := l.delivered ++ [d] } m :=
      fun m hm => hm.imp_left (List.mem_append_left _)
    refine ⟨hkept, hinv.queued,
      fun b hb hbutton m hm => hmem m (hinv.pending b hb hbutton m hm),
      fun m hm => hmem m (hinv.latest m hm),
      everyAt_snoc.mpr ⟨hinv.log, fun hbutton => ?_⟩⟩
    have hpointer := ControlMsg.isPointer_of_isButton hbutton
    rw [hd.2.1] at hpointer; cases hpointer

end Ledger

-- ============================= the results

/-- A press is delivered after its movement, in every run that accepts
no movement over the position of a queued press. -/
theorem press_positioned (gates : ControlInbox) (ops : List Op)
    (h : Meets Trace.step
      (Trace.Guarded fun t m => t.ledger.PressGuard m)
      (Trace.start gates) ops) :
    (exec Trace.step (Trace.start gates) ops).PressPositioned :=
  (reflTransGen_invariant (fun _ _ h => h.pressInv) (Trace.simulates h)
    (Ledger.pressInv_start gates)).log

/-- A drag drained in two batches: the press follows its movement, and
so does the release. -/
theorem press_positioned_drag :
    (exec Trace.step (Trace.start {})
      [.enqueue (.mouseMove 1 1), .enqueue (.mouseEvent 1 1 1 true),
        .takeBatch 1, .takeBatch 8, .enqueue (.mouseMove 2 2),
        .enqueue (.mouseMove 3 3), .enqueue (.mouseEvent 3 3 1 false),
        .takeBatch 8]).PressPositioned :=
  press_positioned {} _ (by decide)

/-- Move, press, move, drain: the second movement replaces the first
under the queued press, which goes out first and unpositioned. -/
theorem press_overtaken :
    let ops : List Op :=
      [.enqueue (.mouseMove 1 1), .enqueue (.mouseEvent 1 1 1 true),
        .enqueue (.mouseMove 2 2), .takeBatch 8]
    Meets Trace.step (Trace.Guarded fun _ m => m.isSwitch = false)
        (Trace.start {}) ops
      ∧ (exec Trace.step (Trace.start {}) ops).delivered
        = [⟨some 2, .mouseEvent 1 1 1 true⟩, ⟨some 3, .mouseMove 2 2⟩]
      ∧ LastMoveBefore (exec Trace.step (Trace.start {}) ops).accepted
          ⟨1, .mouseMove 1 1⟩ 2
      ∧ ¬ (exec Trace.step (Trace.start {}) ops).PressPositioned := by
  refine ⟨by decide, by decide, by decide, fun h => ?_⟩
  obtain ⟨n, hn, -, hbefore⟩ := h [] ⟨some 2, .mouseEvent 1 1 1 true⟩
    [⟨some 3, .mouseMove 2 2⟩] (by decide) rfl
  cases hn
  exact absurd (hbefore ⟨1, .mouseMove 1 1⟩ (by decide)) (by simp)

end RemoteDesk.Inbox
