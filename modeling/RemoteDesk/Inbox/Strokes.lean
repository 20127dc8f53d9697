/-
Runs of the inbox as pointer input sees them.

# The record

`Strokes` is the pointer projection of a trace: the queues with the
touch bookkeeping, and the messages accepted and delivered. Its rules
are those of `Pointers`, and every run of the inbox is a run of them
(`Trace.strokes_simulate`), with any number of calls: the rules carry
the saturation of the numbers with them.

# What is queued behind what

`Pointers.Ordered` holds of every run. From it, a touch slot is only
drained when the deque is empty (`Ordered.touch_first`), and a wheel
slot when the deque holds nothing but touch starts
(`Ordered.wheel_first`).
-/
import RemoteDesk.Inbox.Pointers

namespace RemoteDesk.Inbox

open Lib

-- =================================== order

/-- The slots are as new as what is queued, starts behind a wheel slot
apart, and every source holds its kind of message. -/
structure Pointers.Ordered (p : Pointers) (next : Nat) : Prop where
  bounded : next ≤ u64Max
  queued : ∀ e ∈ p.queues.reliable, e.sequence ≤ next
  touch : ∀ pending, p.queues.touchUpdate = some pending →
    pending.sequence ≤ next
      ∧ ∀ e ∈ p.queues.reliable, e.sequence ≤ pending.sequence
  wheel : ∀ pending, p.queues.mouseWheel2D = some pending →
    pending.sequence ≤ next
      ∧ ∃ older newer, p.queues.reliable = older ++ newer
        ∧ (∀ e ∈ older, e.sequence ≤ pending.sequence)
        ∧ ∀ e ∈ newer, e.message.isTouchStart = true
  move_kind : ∀ e, p.queues.mouseMove = some e → e.message.isMove = true
  switch_kind : ∀ e, p.queues.displaySwitch = some e →
    e.message.isSwitch = true

namespace Pointers.Ordered

variable {p p' : Pointers} {next : Nat}

/-- A touch slot goes out behind an empty deque. -/
theorem touch_first (h : p.Ordered next) {pending : PendingTouchUpdate}
    (hq : p.queues.touchUpdate = some pending)
    (strict : ∀ e ∈ p.queues.reliable.head?,
      pending.sequence < e.sequence) : p.queues.reliable = [] := by
  cases hr : p.queues.reliable with
  | nil => rfl
  | cons e rest =>
    have hlt := strict e (by rw [hr]; rfl)
    have hle := (h.touch pending hq).2 e (by rw [hr]; simp)
    omega

/-- A wheel slot goes out ahead of touch starts only. -/
theorem wheel_first (h : p.Ordered next) {pending : PendingMouseWheel2D}
    (hq : p.queues.mouseWheel2D = some pending)
    (strict : ∀ e ∈ p.queues.reliable.head?,
      pending.sequence < e.sequence) :
    ∀ e ∈ p.queues.reliable, e.message.isTouchStart = true := by
  obtain ⟨-, older, newer, hsplit, holder, hnewer⟩ := h.wheel pending hq
  cases older with
  | nil => rw [hsplit]; exact hnewer
  | cons e older =>
    have hlt := strict e (by rw [hsplit]; rfl)
    have hle := holder e List.mem_cons_self
    omega

/-- A flushed entry is as old as the slot it was in. -/
theorem flushed_le (h : p.Ordered next) {e : SequencedControl}
    (he : e ∈ p.queues.flushed) : e.sequence ≤ next := by
  rcases Queues.mem_flushed.mp he with he | he
  · unfold Queues.touchEntries at he
    cases hq : p.queues.touchUpdate with
    | none => rw [hq] at he; cases he
    | some pending =>
      rw [hq] at he
      rw [PendingTouchUpdate.entries_sequence he]
      exact (h.touch pending hq).1
  · unfold Queues.wheelEntries at he
    obtain ⟨pending, hq, rfl⟩ := List.mem_map.mp he
    exact (h.wheel pending (Option.mem_toList.mp hq)).1

/-- What uses up a number keeps the order. -/
theorem next_le (h : p.Ordered next) : next ≤ min u64Max (next + 1) := by
  have := h.bounded
  omega

/-- An inbox that has only used up a number. -/
theorem later (h : p.Ordered next) :
    p.Ordered (min u64Max (next + 1)) where
  bounded := min_le_left _ _
  queued e he := (h.queued e he).trans h.next_le
  touch pending hq :=
    ⟨(h.touch pending hq).1.trans h.next_le, (h.touch pending hq).2⟩
  wheel pending hq :=
    ⟨(h.wheel pending hq).1.trans h.next_le, (h.wheel pending hq).2⟩
  move_kind := h.move_kind
  switch_kind := h.switch_kind

/-- A message at the end of the deque, with the slots empty. -/
theorem flush_append (h : p.Ordered next) (m : ControlMsg) :
    (p.flush.append next m).Ordered next where
  bounded := h.bounded
  queued e he := by
    rcases List.mem_append.mp he with he | he
    · rcases List.mem_append.mp he with he | he
      · exact h.queued e he
      · exact h.flushed_le he
    · rw [List.mem_singleton.mp he]
  touch _ hq := by cases hq
  wheel _ hq := by cases hq
  move_kind := h.move_kind
  switch_kind := h.switch_kind

/-- Every rule for an accepted message keeps the order. -/
theorem accepts (h : p.Ordered next) {m : ControlMsg}
    (hm : p.Accepts next m p') : p'.Ordered next := by
  cases hm with
  | flag => exact h
  | move x y =>
    exact { h with
      move_kind := by intro e he; cases he; rfl }
  | switch display generation =>
    exact
      { bounded := h.bounded
        queued := fun e he => h.queued e (List.mem_of_mem_filter he)
        touch := by intro _ hq; cases hq
        wheel := by intro _ hq; cases hq
        move_kind := by intro _ hq; cases hq
        switch_kind := by intro e he; cases he; rfl }
  | start x y =>
    refine { h with queued := ?_, touch := ?_, wheel := ?_ }
    · intro e he
      rcases List.mem_append.mp he with he | he
      · exact h.queued e he
      · rw [List.mem_singleton.mp he]
    · intro _ hq; cases hq
    · intro pending hq
      obtain ⟨hle, older, newer, hsplit, holder, hnewer⟩ :=
        h.wheel pending hq
      refine ⟨hle, older, newer ++ [⟨next, .touchPanStart x y⟩],
        ?_, holder, ?_⟩
      · show p.queues.reliable ++ _ = _
        rw [hsplit, List.append_assoc]
      · intro e he
        rcases List.mem_append.mp he with he | he
        · exact hnewer e he
        · rw [List.mem_singleton.mp he]; rfl
  | scale | pan =>
    exact { h with
      touch := by
        intro pending hq
        cases hq
        exact ⟨le_rfl, h.queued⟩ }
  | wheel x y =>
    refine { h with wheel := ?_ }
    intro pending hq
    cases hq
    exact ⟨le_rfl, p.queues.reliable, [], by simp [foldWheel], h.queued,
      by simp⟩
  | scaleEnd => exact { h.flush_append _ with }
  | panEnd x y => exact { h.flush_append _ with }
  | reliable m => exact h.flush_append m

/-- Every turn of the drain loop keeps the order. -/
theorem pops (h : p.Ordered next) {out : List Delivery}
    (hp : p.Pops out p') : p'.Ordered next := by
  cases hp with
  | reliable e rest hq =>
    have hmem : ∀ x ∈ rest, x ∈ p.queues.reliable := fun x hx => by
      rw [hq]; exact List.mem_cons_of_mem e hx
    refine { h with queued := ?_, touch := ?_, wheel := ?_ }
    · exact fun x hx => h.queued x (hmem x hx)
    · exact fun pending ht => ⟨(h.touch pending ht).1,
        fun x hx => (h.touch pending ht).2 x (hmem x hx)⟩
    · intro pending hw
      obtain ⟨hle, older, newer, hsplit, holder, hnewer⟩ :=
        h.wheel pending hw
      rw [hq] at hsplit
      refine ⟨hle, ?_⟩
      cases older with
      | nil =>
        rw [List.nil_append] at hsplit
        refine ⟨[], rest, rfl, by simp, fun x hx => hnewer x ?_⟩
        rw [← hsplit]
        exact List.mem_cons_of_mem e hx
      | cons first older =>
        rw [List.cons_append] at hsplit
        obtain ⟨-, hrest⟩ := List.cons.inj hsplit
        exact ⟨older, newer, hrest,
          fun x hx => holder x (List.mem_cons_of_mem first hx), hnewer⟩
  | move => exact { h with move_kind := by intro _ hq; cases hq }
  | touch pending out rest hq strict split hrest =>
    refine { h with touch := ?_ }
    intro left hleft
    rw [hrest left hleft]
    exact h.touch pending hq
  | wheel => exact { h with wheel := by intro _ hq; cases hq }
  | switch => exact { h with switch_kind := by intro _ hq; cases hq }

end Pointers.Ordered

-- ================================= strokes

/-- A run as pointer input sees it. -/
structure Strokes where
  pointers : Pointers
  next : Nat
  accepted : List ControlMsg
  delivered : List ControlMsg

/-- What a run does to it, under a `guard` on what is enqueued. -/
inductive Strokes.Step (guard : Pointers → ControlMsg → Prop) :
    Strokes → Strokes → Prop
  | accept (s : Strokes) (m : ControlMsg) (p' : Pointers)
      (hg : guard s.pointers m) (hm : s.pointers.Accepts s.next m p') :
      Step guard s
        { s with
          pointers := p'
          next := min u64Max (s.next + 1)
          accepted := s.accepted ++ [m] }
  | skip (s : Strokes) :
      Step guard s { s with next := min u64Max (s.next + 1) }
  | pop (s : Strokes) (out : List Delivery) (p' : Pointers)
      (hp : s.pointers.Pops out p') :
      Step guard s
        { s with
          pointers := p'
          delivered := s.delivered ++ out.map (·.message) }
  | flag (s : Strokes) (m : ControlMsg) (hm : m.isQuiet = true) :
      Step guard s { s with delivered := s.delivered ++ [m] }

/-- Every rule keeps the order of the queues. -/
theorem Strokes.Step.ordered {guard : Pointers → ControlMsg → Prop}
    {s s' : Strokes} (h : Strokes.Step guard s s')
    (hs : s.pointers.Ordered s.next) : s'.pointers.Ordered s'.next := by
  cases h with
  | accept m p' hg hm => exact (hs.accepts hm).later
  | skip => exact hs.later
  | pop out p' hp => exact hs.pops hp
  | flag => exact hs

namespace Trace

def strokes (t : Trace) : Strokes :=
  { pointers := t.inbox.state.pointers
    next := t.next
    accepted := t.accepted.map (·.message)
    delivered := t.delivered.map (·.message) }

theorem ordered_start (gates : ControlInbox) :
    (start gates).strokes.pointers.Ordered (start gates).strokes.next where
  bounded := show 1 ≤ u64Max by decide
  queued _ he := by cases he
  touch _ hq := by cases hq
  wheel _ hq := by cases hq
  move_kind _ hq := by cases hq
  switch_kind _ hq := by cases hq

/-- A call whose message meets `guard`. -/
def Heeds (guard : Pointers → ControlMsg → Prop) (t : Trace) : Op → Prop
  | .enqueue m => guard t.inbox.state.pointers m
  | .takeBatch _ => True

instance (guard : Pointers → ControlMsg → Prop)
    [∀ p m, Decidable (guard p m)] (t : Trace) (op : Op) :
    Decidable (Heeds guard t op) :=
  match op with
  | .enqueue _ => inferInstanceAs (Decidable (guard _ _))
  | .takeBatch _ => isTrue trivial

variable {guard : Pointers → ControlMsg → Prop}

/-- The inbox takes the message: it lets it through and queues it. -/
def takes (t : Trace) (m : ControlMsg) : Bool :=
  (t.inbox.enqueue m).2 && decide (m ≠ .shutdown)

/-- A call of `enqueue`: the message is taken as its rule says, or the
pointers stay as they are. -/
theorem stepEnqueue_cases (t : Trace) (m : ControlMsg) :
    (t.takes m = true ∧ ∃ p', t.strokes.pointers.Accepts t.next m p'
        ∧ (t.stepEnqueue m).strokes
          = { t.strokes with
              pointers := p'
              next := min u64Max (t.next + 1)
              accepted := t.strokes.accepted ++ [m] })
      ∨ (t.takes m = false ∧ ((t.stepEnqueue m).strokes = t.strokes
        ∨ (t.stepEnqueue m).strokes
          = { t.strokes with next := min u64Max (t.next + 1) })) := by
  unfold stepEnqueue takes
  by_cases hm : m = .shutdown
  · subst hm
    exact .inr ⟨by simp, .inl rfl⟩
  by_cases ha : t.inbox.Admits m
  · rw [ControlInbox.enqueue_admitted hm ha]
    obtain ⟨⟨s', accepted⟩, hs⟩ :
        ∃ result, t.inbox.state.enqueue m = result := ⟨_, rfl⟩
    rw [hs]
    cases accepted with
    | true =>
      have hnext : s'.nextSequence = min u64Max (t.next + 1) :=
        (ControlInboxState.enqueue_accepted hm hs).2
      refine .inl ⟨by simpa using hm, s'.pointers,
        ControlInboxState.enqueue_accepts hm hs, ?_⟩
      dsimp only
      rw [if_pos ⟨rfl, hm⟩]
      simp [strokes, next, hnext]
    | false =>
      have hnext : s'.nextSequence = min u64Max (t.next + 1) :=
        (ControlInboxState.enqueue_rejected hs).2
      refine .inr ⟨rfl, .inr ?_⟩
      dsimp only
      rw [if_neg fun h => Bool.false_ne_true h.1]
      simp [strokes, next, hnext, ControlInboxState.enqueue_refuses hs]
  · rw [ControlInbox.enqueue_refused hm ha]
    exact .inr ⟨rfl, .inl rfl⟩

private theorem strokes_enqueue {t : Trace} {m : ControlMsg}
    (hg : guard t.inbox.state.pointers m) :
    Relation.ReflTransGen (Strokes.Step guard) t.strokes
      (t.stepEnqueue m).strokes := by
  rcases t.stepEnqueue_cases m with
    ⟨-, p', hm, heq⟩ | ⟨-, heq | heq⟩
  · exact heq ▸ .single (.accept t.strokes m p' hg hm)
  · exact heq ▸ .refl
  · exact heq ▸ .single (.skip t.strokes)

/-- A `take_batch` pops and hands out flags: it accepts nothing, under
any guard. -/
theorem strokes_takeBatch (t : Trace) (limit : Nat) :
    Relation.ReflTransGen (Strokes.Step guard) t.strokes
      (t.stepTakeBatch limit).strokes := by
  have hkeeps : ControlInboxState.DrainKeeps fun s log =>
      Relation.ReflTransGen (Strokes.Step guard) t.strokes
        { t.strokes with
          pointers := s.pointers, delivered := log.map (·.message) }
        ∧ s.nextSequence = t.next := by
    constructor
    · intro s log room out s' h hp
      refine ⟨h.1.tail ?_, ?_⟩
      · rw [List.map_append]
        exact .pop { t.strokes with
          pointers := s.pointers, delivered := log.map (·.message) }
          out s'.pointers (ControlInboxState.popOrdered_pops hp)
      · exact (ControlInboxState.popOrdered_popped hp).2.1.trans h.2
    · intro s log h
      refine ⟨h.1.tail ?_, h.2⟩
      rw [List.map_append]
      exact .flag { t.strokes with
        pointers := s.pointers, delivered := log.map (·.message) } _ rfl
    · intro s log level h
      refine ⟨h.1.tail ?_, h.2⟩
      rw [List.map_append]
      exact .flag { t.strokes with
        pointers := s.pointers, delivered := log.map (·.message) } _ rfl
    · exact fun s log hits h => h
  obtain ⟨hrun, hnext⟩ := @ControlInboxState.DrainKeeps.takeBatch _ hkeeps
    t.inbox.state t.delivered limit ⟨.refl, rfl⟩
  convert hrun using 1
  exact congrArg (fun n => Strokes.mk _ n _ _) hnext

/-- Every run of the inbox is a run of the rules. -/
theorem strokes_simulate {t : Trace} {ops : List Op}
    (h : Meets step (Heeds guard) t ops) :
    Relation.ReflTransGen (Strokes.Step guard) t.strokes
      (exec step t ops).strokes := by
  refine h.simulates fun t op hg => ?_
  cases op with
  | enqueue m => exact strokes_enqueue hg
  | takeBatch limit => exact strokes_takeBatch t limit

end Trace

end RemoteDesk.Inbox
