/-
What a call does to pointer input, in full.

# Why a second projection

`Queues` and its effects say which entries a call can touch. What the
touch stream looks like to the peer also depends on the stream flags,
the marker counters and the folded values, so `Pointers` keeps those
next to the queues, and `Accepts` and `Pops` say exactly what becomes of
them: one rule for each arm of `enqueue` and for each turn of the drain
loop.

# Ties

Numbers saturate, so two entries can carry the same one. The deque then
goes first (`nextOrderedPending_strict`): a slot is only drained when
its number is below that of the deque's head. `Pointers.Ordered` is what
makes that enough: whatever is queued is no newer than the slots, but
for touch starts, which leave the wheel slot where it is.
-/
import RemoteDesk.Inbox.Trace

namespace RemoteDesk.Inbox

open Lib

-- ================================ messages

namespace ControlMsg

def isTouchStart : ControlMsg → Bool
  | touchPanStart .. => true
  | _ => false

/-- The two messages that end a touch stream. -/
def isTouchEnd : ControlMsg → Bool
  | touchScale scale => decide (scale = 0)
  | touchPanEnd .. => true
  | _ => false

def isPanEnd : ControlMsg → Bool
  | touchPanEnd .. => true
  | _ => false

def isScaleEnd : ControlMsg → Bool
  | touchScale scale => decide (scale = 0)
  | _ => false

/-- What never enters the deque: the pointer's position, the display
selection and the two flags. -/
def isQuiet : ControlMsg → Bool
  | shutdown | refreshVideo | videoPressure .. | mouseMove ..
  | displaySwitch .. => true
  | _ => false

end ControlMsg

-- ================================ pointers

/-- The queues with the touch bookkeeping. -/
structure Pointers where
  queues : Queues
  touchActive : Bool
  touchScaleEndPending : Bool
  touchPanEndEnqueued : Bool
  pendingTouchScaleEndMarkers : Nat
  pendingTouchPanEnds : Nat

def ControlInboxState.pointers (s : ControlInboxState) : Pointers :=
  { queues := s.queues
    touchActive := s.touchActive
    touchScaleEndPending := s.touchScaleEndPending
    touchPanEndEnqueued := s.touchPanEndEnqueued
    pendingTouchScaleEndMarkers := s.pendingTouchScaleEndMarkers
    pendingTouchPanEnds := s.pendingTouchPanEnds }

namespace Pointers

/-- The scale that waits. -/
def scale (p : Pointers) : Option Int :=
  p.queues.touchUpdate.bind PendingTouchUpdate.scale

/-- The pan that waits. -/
def pan (p : Pointers) : Option (Int × Int) :=
  p.queues.touchUpdate.bind PendingTouchUpdate.pan

/-- The wheel deltas that wait. -/
def wheel (p : Pointers) : Option (Int × Int) :=
  p.queues.mouseWheel2D.map fun pending => (pending.x, pending.y)

def append (p : Pointers) (n : Nat) (m : ControlMsg) : Pointers :=
  { p with queues :=
      { p.queues with reliable := p.queues.reliable ++ [⟨n, m⟩] } }

@[simp] theorem reliable_append (p : Pointers) (n : Nat)
    (m : ControlMsg) :
    (p.append n m).queues.reliable
      = p.queues.reliable ++ [⟨n, m⟩] := rfl

/-- The slots go to the deque. -/
def flush (p : Pointers) : Pointers :=
  { p with queues :=
      { p.queues with
        reliable := p.queues.reliable ++ p.queues.flushed
        touchUpdate := none
        mouseWheel2D := none } }

@[simp] theorem reliable_flush (p : Pointers) :
    p.flush.queues.reliable
      = p.queues.reliable ++ p.queues.flushed := rfl

/-- The counters once `m` has left the deque. -/
def sent (p : Pointers) (m : ControlMsg) : Pointers :=
  { p with
    pendingTouchScaleEndMarkers :=
      p.pendingTouchScaleEndMarkers - (if m.isScaleEnd then 1 else 0)
    pendingTouchPanEnds :=
      p.pendingTouchPanEnds - (if m.isPanEnd then 1 else 0) }

/-- The slot after a scale, with the pan it had. -/
def foldScale (p : Pointers) (n : Nat) (scale : Int) : Pointers :=
  { p with queues :=
      { p.queues with
        touchUpdate := some
          { sequence := n
            scale := some (p.scale.elim scale fun previous =>
              combineScaleDelta previous scale)
            pan := p.pan } } }

/-- The slot after a pan, with the scale it had. -/
def foldPan (p : Pointers) (n : Nat) (x y : Int) : Pointers :=
  { p with queues :=
      { p.queues with
        touchUpdate := some
          { sequence := n
            scale := p.scale
            pan := some (p.pan.elim (x, y) fun previous =>
              (i32SaturatingAdd previous.1 x,
                i32SaturatingAdd previous.2 y)) } } }

def foldWheel (p : Pointers) (n : Nat) (x y : Int) : Pointers :=
  { p with queues :=
      { p.queues with
        mouseWheel2D :=
          let folded := p.wheel.elim (x, y) fun previous =>
            (i32SaturatingAdd previous.1 x, i32SaturatingAdd previous.2 y)
          some { sequence := n, x := folded.1, y := folded.2 } } }

@[simp] theorem scale_foldScale (p : Pointers) (n : Nat) (v : Int) :
    (p.foldScale n v).scale
      = some (p.scale.elim v fun previous =>
          combineScaleDelta previous v) := rfl

@[simp] theorem pan_foldPan (p : Pointers) (n : Nat) (x y : Int) :
    (p.foldPan n x y).pan
      = some (p.pan.elim (x, y) fun previous =>
          (i32SaturatingAdd previous.1 x,
            i32SaturatingAdd previous.2 y)) := rfl

/-- What an accepted message does. -/
inductive Accepts (p : Pointers) (n : Nat) :
    ControlMsg → Pointers → Prop
  | flag (m : ControlMsg) (hm : m.isQuiet = true)
      (hmove : m.isMove = false) (hswitch : m.isSwitch = false) :
      Accepts p n m p
  | move (x y : Int) :
      Accepts p n (.mouseMove x y)
        { p with queues :=
          { p.queues with mouseMove := some ⟨n, .mouseMove x y⟩ } }
  | switch (display : Int) (generation : Nat) :
      Accepts p n (.displaySwitch display generation)
        { p with queues :=
          { reliable :=
              p.queues.reliable.filter (!·.message.isStaleUpdate)
            mouseMove := none
            touchUpdate := none
            mouseWheel2D := none
            displaySwitch :=
              some ⟨n, .displaySwitch display generation⟩ } }
  /-- A start drops the touch slot and leaves the wheel where it is. -/
  | start (x y : Int) :
      Accepts p n (.touchPanStart x y)
        (append
          { p with
            queues := { p.queues with touchUpdate := none }
            touchActive := true
            touchScaleEndPending := false
            touchPanEndEnqueued := false } n (.touchPanStart x y))
  | scale (scale : Int) (hpos : 0 < scale)
      (hactive : p.touchActive = true)
      (hopen : p.touchScaleEndPending = false) :
      Accepts p n (.touchScale scale) (p.foldScale n scale)
  | pan (x y : Int) (hactive : p.touchActive = true)
      (hopen : p.touchScaleEndPending = false) :
      Accepts p n (.touchPanUpdate x y) (p.foldPan n x y)
  | wheel (x y : Int) :
      Accepts p n (.mouseWheel2D x y) (p.foldWheel n x y)
  | scaleEnd (hactive : p.touchActive = true)
      (hopen : p.touchScaleEndPending = false) :
      Accepts p n (.touchScale 0)
        (append
          { p.flush with
            touchScaleEndPending := true
            touchActive := false
            pendingTouchScaleEndMarkers :=
              p.pendingTouchScaleEndMarkers + 1 } n (.touchScale 0))
  | panEnd (x y : Int) (hend : p.touchPanEndEnqueued = false)
      (hopen : p.touchActive = true ∨ p.touchScaleEndPending = true) :
      Accepts p n (.touchPanEnd x y)
        (append
          { p.flush with
            touchActive := false
            touchScaleEndPending := true
            touchPanEndEnqueued := true
            pendingTouchPanEnds := p.pendingTouchPanEnds + 1 }
          n (.touchPanEnd x y))
  | reliable (m : ControlMsg) (hr : m.isReliable = true)
      (hstart : m.isTouchStart = false) (hend : m.isTouchEnd = false) :
      Accepts p n m (p.flush.append n m)

/-- What a turn of the drain loop does. -/
inductive Pops (p : Pointers) : List Delivery → Pointers → Prop
  | reliable (e : SequencedControl) (rest : List SequencedControl)
      (hq : p.queues.reliable = e :: rest) :
      Pops p [e.delivery]
        (sent { p with queues := { p.queues with reliable := rest } }
          e.message)
  | move (e : SequencedControl) (hq : p.queues.mouseMove = some e) :
      Pops p [e.delivery]
        { p with queues := { p.queues with mouseMove := none } }
  | touch (pending : PendingTouchUpdate) (out : List SequencedControl)
      (rest : Option PendingTouchUpdate)
      (hq : p.queues.touchUpdate = some pending)
      (strict : ∀ e ∈ p.queues.reliable.head?,
        pending.sequence < e.sequence)
      (split : out ++ rest.elim [] PendingTouchUpdate.entries
        = pending.entries)
      (hrest : ∀ left, rest = some left →
        left.sequence = pending.sequence) :
      Pops p (out.map SequencedControl.delivery)
        { p with queues := { p.queues with touchUpdate := rest } }
  | wheel (pending : PendingMouseWheel2D)
      (hq : p.queues.mouseWheel2D = some pending)
      (strict : ∀ e ∈ p.queues.reliable.head?,
        pending.sequence < e.sequence) :
      Pops p [pending.entry.delivery]
        { p with queues := { p.queues with mouseWheel2D := none } }
  | switch (e : SequencedControl) (hq : p.queues.displaySwitch = some e) :
      Pops p [e.delivery]
        { p with queues := { p.queues with displaySwitch := none } }

end Pointers

-- ============================== primitives

namespace ControlInboxState

variable {s s' : ControlInboxState}

theorem pointers_enqueueReliable (s : ControlInboxState) (n : Nat)
    (m : ControlMsg) :
    (s.enqueueReliable n m).pointers = s.pointers.append n m := rfl

theorem pointers_enqueueTouchUpdate (s : ControlInboxState)
    (pending : PendingTouchUpdate) :
    (s.enqueueTouchUpdate pending).pointers
      = { s.pointers with queues :=
          { s.queues with
            reliable := s.queues.reliable ++ pending.entries } } := by
  obtain ⟨n, scale, pan⟩ := pending
  cases scale <;> cases pan <;>
    simp [enqueueTouchUpdate, PendingTouchUpdate.entries, pointers,
      enqueueReliable, queues]

/-- A flush moves entries and nothing else. -/
theorem pointers_flushCoalesced (s : ControlInboxState) :
    s.flushCoalesced.pointers = s.pointers.flush := by
  have ht : s.pointers.queues.touchUpdate = s.touchUpdate := rfl
  have hw : s.pointers.queues.mouseWheel2D = s.mouseWheel2D := rfl
  unfold flushCoalesced Pointers.flush Queues.flushed
  rw [ht, hw]
  cases s.touchUpdate <;> cases s.mouseWheel2D
  case none.none => rw [List.append_nil]; rfl
  case none.some wheel => rfl
  case some.none touch => exact pointers_enqueueTouchUpdate _ _
  case some.some touch wheel =>
    dsimp only
    split
    · rw [enqueueMouseWheel2D, pointers_enqueueReliable,
        pointers_enqueueTouchUpdate, ← List.append_assoc]
      rfl
    · rw [pointers_enqueueTouchUpdate, enqueueMouseWheel2D,
        queues_enqueueReliable, pointers_enqueueReliable,
        List.append_cons s.pointers.queues.reliable wheel.entry
          touch.entries]
      rfl

theorem pointers_mergeTouchScale (s : ControlInboxState) (n : Nat)
    (scale : Int) :
    (s.mergeTouchScale n scale).pointers
      = s.pointers.foldScale n scale := by
  unfold mergeTouchScale
  cases hs : s.touchUpdate with
  | none =>
    simp [pointers, queues, Pointers.foldScale, Pointers.scale,
      Pointers.pan, hs]
  | some pending =>
    obtain ⟨old, previous, pan⟩ := pending
    cases previous <;>
      simp [pointers, queues, Pointers.foldScale, Pointers.scale,
        Pointers.pan, hs]

theorem pointers_mergeTouchPan (s : ControlInboxState) (n : Nat)
    (x y : Int) :
    (s.mergeTouchPan n x y).pointers = s.pointers.foldPan n x y := by
  unfold mergeTouchPan
  cases hs : s.touchUpdate with
  | none =>
    simp [pointers, queues, Pointers.foldPan, Pointers.scale,
      Pointers.pan, hs]
  | some pending =>
    obtain ⟨old, scale, previous⟩ := pending
    cases previous <;>
      simp [pointers, queues, Pointers.foldPan, Pointers.scale,
        Pointers.pan, hs]

theorem pointers_mergeMouseWheel2D (s : ControlInboxState) (n : Nat)
    (x y : Int) :
    (s.mergeMouseWheel2D n x y).pointers
      = s.pointers.foldWheel n x y := by
  unfold mergeMouseWheel2D
  cases hs : s.mouseWheel2D <;>
    simp [pointers, queues, Pointers.foldWheel, Pointers.wheel, hs]

-- ================================= enqueue

variable {m : ControlMsg}

theorem enqueueOther_accepts (s : ControlInboxState) (hr : m.isReliable = true)
    (hstart : m.isTouchStart = false) (hend : m.isTouchEnd = false) :
    s.pointers.Accepts s.nextSequence m
      (enqueueOther { s with nextSequence := s.afterSequence }
        s.nextSequence m).pointers := by
  unfold enqueueOther
  rw [pointers_enqueueReliable, pointers_flushCoalesced]
  exact .reliable m hr hstart hend

/-- An accepted message does what its rule says. -/
theorem enqueue_accepts (hm : m ≠ .shutdown) (h : s.enqueue m = (s', true)) :
    s.pointers.Accepts s.nextSequence m s'.pointers := by
  unfold enqueue takeSequence at h
  cases m with
  | shutdown => exact absurd rfl hm
  | mouseWheel2D x y =>
    dsimp only at h
    split at h
    · cases h
    · cases h
      rw [pointers_mergeMouseWheel2D]
      exact .wheel x y
  | mouseMove x y => cases h; exact .move x y
  | displaySwitch d g => cases h; exact .switch d g
  | refreshVideo => cases h; exact .flag _ rfl rfl rfl
  | videoPressure l => cases h; exact .flag _ rfl rfl rfl
  | touchPanStart x y => cases h; exact .start x y
  | touchScale scale =>
    dsimp only at h
    split at h
    case isTrue hpos =>
      split at h
      · cases h
      · next hguard =>
        cases h
        rw [pointers_mergeTouchScale]
        simp only [Bool.or_eq_true, Bool.not_eq_true',
          not_or, Bool.not_eq_false, Bool.not_eq_true] at hguard
        exact .scale scale hpos hguard.1 hguard.2
    case isFalse hpos =>
      split at h
      · next hzero =>
        split at h
        · cases h
        · next hguard =>
          subst hzero
          cases h
          simp only [Bool.or_eq_true, Bool.not_eq_true',
            not_or, Bool.not_eq_false, Bool.not_eq_true] at hguard
          have hp := pointers_flushCoalesced
            { s with nextSequence := min u64Max (s.nextSequence + 1) }
          generalize flushCoalesced _ = flushed at hp ⊢
          show s.pointers.Accepts _ _ (Pointers.append
            { flushed.pointers with
              touchScaleEndPending := true
              touchActive := false
              pendingTouchScaleEndMarkers :=
                flushed.pointers.pendingTouchScaleEndMarkers + 1 } _ _)
          rw [hp]
          exact .scaleEnd hguard.1 hguard.2
      · next hzero =>
        cases h
        refine enqueueOther_accepts s ?_ rfl
          (decide_eq_false hzero)
        simp only [ControlMsg.isReliable, decide_eq_true_eq]
        omega
  | touchPanUpdate x y =>
    dsimp only at h
    split at h
    · cases h
    · next hguard =>
      cases h
      rw [pointers_mergeTouchPan]
      simp only [Bool.or_eq_true, Bool.not_eq_true',
        not_or, Bool.not_eq_false, Bool.not_eq_true] at hguard
      exact .pan x y hguard.1 hguard.2
  | touchPanEnd x y =>
    dsimp only at h
    split at h
    · cases h
    · next hguard =>
      cases h
      simp only [Bool.or_eq_true, Bool.and_eq_true, Bool.not_eq_true',
        not_or, Bool.not_eq_true, not_and, Bool.not_eq_false] at hguard
      have hopen : s.touchActive = true
          ∨ s.touchScaleEndPending = true := by
        cases hactive : s.touchActive with
        | true => exact .inl rfl
        | false => exact .inr (hguard.2 hactive)
      have hp := pointers_flushCoalesced
        { s with nextSequence := min u64Max (s.nextSequence + 1) }
      generalize flushCoalesced _ = flushed at hp ⊢
      show s.pointers.Accepts _ _ (Pointers.append
        { flushed.pointers with
          touchActive := false
          touchScaleEndPending := true
          touchPanEndEnqueued := true
          pendingTouchPanEnds :=
            flushed.pointers.pendingTouchPanEnds + 1 } _ _)
      rw [hp]
      exact .panEnd x y hguard.1 hopen
  | _ =>
    cases h
    exact enqueueOther_accepts s rfl rfl rfl

/-- A refused message has only used up a number. -/
theorem enqueue_refuses (h : s.enqueue m = (s', false)) :
    s'.pointers = s.pointers := by
  unfold enqueue takeSequence at h
  cases m with
  | mouseWheel2D x y =>
    dsimp only at h
    split at h <;> cases h
    rfl
  | touchScale scale =>
    dsimp only at h
    split at h
    · split at h <;> cases h
      rfl
    · split at h
      · split at h <;> cases h
        rfl
      · cases h
  | touchPanUpdate x y =>
    dsimp only at h
    split at h <;> cases h
    rfl
  | touchPanEnd x y =>
    dsimp only at h
    split at h <;> cases h
    rfl
  | _ => cases h

-- =============================== the drain

/-- The selection is the deque, or is older than its head. -/
private def BeatsDeque (s : ControlInboxState) :
    Option (Nat × OrderedPending) → Prop
  | none => s.headSequence .reliable = none
  | some (n, chosen) => s.headSequence chosen = some n
      ∧ (chosen = .reliable
        ∨ ∀ head, s.headSequence .reliable = some head → n < head)

private theorem beatsDeque_prefer
    {selected : Option (Nat × OrderedPending)}
    (h : BeatsDeque s selected) (source : OrderedPending) :
    BeatsDeque s (s.prefer selected source) := by
  unfold prefer
  cases hs : s.headSequence source with
  | none => exact h
  | some n =>
    cases selected with
    | none =>
      refine ⟨hs, .inr fun head hhead => ?_⟩
      rw [show s.headSequence .reliable = none from h] at hhead
      cases hhead
    | some chosen =>
      obtain ⟨m, chosen⟩ := chosen
      by_cases hlt : n < m
      · simp only [Option.all_some, hlt, decide_true, if_true]
        refine ⟨hs, .inr fun head hhead => ?_⟩
        obtain ⟨hm, rfl | h⟩ := h
        · rw [hm] at hhead
          cases hhead
          exact hlt
        · exact hlt.trans (h head hhead)
      · simp only [Option.all_some, hlt, decide_false,
          Bool.false_eq_true, if_false]
        exact h

/-- A source other than the deque is chosen only below the number at
the deque's head. -/
theorem nextOrderedPending_strict {source : OrderedPending}
    (h : s.nextOrderedPending = some source) (hs : source ≠ .reliable) :
    ∃ n, s.headSequence source = some n
      ∧ ∀ e ∈ s.queues.reliable.head?, n < e.sequence := by
  have hfirst : BeatsDeque s (s.prefer none .reliable) := by
    unfold prefer
    cases hr : s.headSequence .reliable with
    | none => exact hr
    | some n => exact ⟨hr, .inl rfl⟩
  have hall := beatsDeque_prefer (beatsDeque_prefer (beatsDeque_prefer
    (beatsDeque_prefer hfirst .mouseMove) .touchUpdate) .mouseWheel2D)
    .displaySwitch
  obtain ⟨⟨n, chosen⟩, hsel, rfl⟩ := Option.map_eq_some_iff.mp h
  rw [List.foldl_cons, List.foldl_cons, List.foldl_cons, List.foldl_cons,
    List.foldl_cons, List.foldl_nil] at hsel
  rw [hsel] at hall
  obtain ⟨hn, hreliable | hall⟩ := hall
  · exact absurd hreliable hs
  · refine ⟨n, hn, fun e he => hall e.sequence ?_⟩
    rw [headSequence_queues, Queues.headSequence, he]
    rfl

theorem pointers_onReliableSent (s : ControlInboxState)
    (m : ControlMsg) :
    (s.onReliableSent m).pointers = s.pointers.sent m := by
  unfold onReliableSent Pointers.sent
  cases m
  case touchScale scale =>
    dsimp only
    by_cases hzero : scale = 0 <;>
      simp [hzero, pointers, ControlMsg.isScaleEnd, ControlMsg.isPanEnd,
        queues]
  all_goals rfl

theorem pointers_takeTouchUpdate (s : ControlInboxState) (room : Nat) :
    (s.takeTouchUpdate room).2.pointers
      = { s.pointers with queues :=
          (s.takeTouchUpdate room).2.queues } := by
  unfold takeTouchUpdate
  cases s.touchUpdate <;> rfl

/-- One turn of the loop pops one source. -/
theorem popOrdered_pops {room : Nat} {out : List Delivery}
    (h : s.popOrdered room = some (out, s')) :
    s.pointers.Pops out s'.pointers := by
  unfold popOrdered at h
  cases hn : s.nextOrderedPending with
  | none => rw [hn] at h; cases h
  | some source =>
    rw [hn] at h
    cases source with
    | reliable =>
      dsimp only at h
      cases hr : s.reliable with
      | nil => rw [hr] at h; cases h
      | cons e rest =>
        rw [hr] at h
        cases h
        rw [pointers_onReliableSent]
        exact .reliable e rest hr
    | mouseMove =>
      obtain ⟨e, hq, hout⟩ := Option.map_eq_some_iff.mp h
      cases hout
      exact .move e hq
    | touchUpdate =>
      obtain ⟨n, hhead, hstrict⟩ :=
        nextOrderedPending_strict hn (by decide)
      cases hq : s.touchUpdate with
      | none => simp [headSequence, hq] at hhead
      | some pending =>
        have hseq : n = pending.sequence := by
          simpa [headSequence, hq] using hhead.symm
        obtain ⟨es, rest, hes, hqs, -, hsplit, hrest, -⟩ :=
          takeTouchUpdate_split hq
        have hout := Option.some.inj h
        have hp := s.pointers_takeTouchUpdate room
        rw [hout] at hes hqs hp
        dsimp only at hes hqs hp
        rw [hp, hes, hqs]
        exact .touch pending es rest hq (hseq ▸ hstrict) hsplit
          fun left hleft => hrest left hleft
    | mouseWheel2D =>
      obtain ⟨n, hhead, hstrict⟩ :=
        nextOrderedPending_strict hn (by decide)
      dsimp only at h
      cases hq : s.mouseWheel2D with
      | none => simp [headSequence, hq] at hhead
      | some pending =>
        have hseq : n = pending.sequence := by
          simpa [headSequence, hq] using hhead.symm
        rw [hq] at h
        cases h
        exact .wheel pending hq (hseq ▸ hstrict)
    | displaySwitch =>
      obtain ⟨e, hq, hout⟩ := Option.map_eq_some_iff.mp h
      cases hout
      exact .switch e hq

end ControlInboxState

end RemoteDesk.Inbox
