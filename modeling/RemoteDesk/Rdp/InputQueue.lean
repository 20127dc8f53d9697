/-
The input queue of the RDP worker (`rdp_input_queue.h`).

# The queue

Pointer moves wait in a slot where the next one replaces them; any other
event first takes the waiting move into the queue behind which it then
stands. `pop` gives out the queue and, when that is empty, the slot.

# Refinement

`RunLedger` is the queue it means to be: events leave in the order they
came, a move taking the place of the move before it while that is still
queued. `refines_step` is the simulation and `input_queue_collapses`
what a run shows.

# Numbers

Depths and counts are `size_t` counts of what is in memory, taken as
naturals; `textUnitDepth_` is never taken below what is subtracted from
it (`Counted.text`).
-/
import RemoteDesk.Lib.Collapsing
import RemoteDesk.Lib.Runs

namespace RemoteDesk.Rdp

open Lib (exec exec_invariant QueueOp Run RunLedger enqueued)

-- ================================== events

inductive RdpInputEventType
  | key
  | pause
  | textBatch
  | mouse
  | mouseWheel
deriving DecidableEq, Repr

/-- `RdpQueuedInputEvent`, as its factories build it: a pointer move
carries no text. -/
structure RdpQueuedInputEvent where
  type : RdpInputEventType := .key
  flags : UInt16 := 0
  code : UInt16 := 0
  x : Int := 0
  y : Int := 0
  isMouseMove : Bool := false
  geometryEpoch : UInt64 := 0
  geometryWidth : Int := 0
  geometryHeight : Int := 0
  text : List UInt16 := []
  move_text : isMouseMove = true → text = [] := by simp
deriving DecidableEq

namespace RdpQueuedInputEvent

def key (flags code : UInt16) : RdpQueuedInputEvent :=
  { type := .key, flags := flags, code := code }

def pause : RdpQueuedInputEvent := { type := .pause }

def textBatch (text : List UInt16) : RdpQueuedInputEvent :=
  { type := .textBatch, text := text }

def mouse (flags code : UInt16) (x y : Int) (isMouseMove : Bool)
    (geometryEpoch : UInt64) (geometryWidth geometryHeight : Int) :
    RdpQueuedInputEvent :=
  { type := .mouse, flags := flags, code := code, x := x, y := y
    isMouseMove := isMouseMove, geometryEpoch := geometryEpoch
    geometryWidth := geometryWidth, geometryHeight := geometryHeight }

def mouseWheel (flags code : UInt16) (x y : Int) (geometryEpoch : UInt64)
    (geometryWidth geometryHeight : Int) : RdpQueuedInputEvent :=
  { type := .mouseWheel, flags := flags, code := code, x := x, y := y
    geometryEpoch := geometryEpoch, geometryWidth := geometryWidth
    geometryHeight := geometryHeight }

end RdpQueuedInputEvent

inductive RdpInputEnqueueResult
  | enqueued
  | replacedMouseMove
  | droppedMouseMove
deriving DecidableEq, Repr

-- =================================== queue

structure RdpInputQueue where
  reliableEvents : List RdpQueuedInputEvent := []
  pendingMouseMove : Option RdpQueuedInputEvent := none
  textUnitDepth : Nat := 0
  maxDepth : Nat := 0
  droppedMouseMoves : Nat := 0
  droppedNonDisposable : Nat := 0
  nonDisposableOverflow : Nat := 0
deriving DecidableEq

namespace RdpInputQueue

/-- `kSoftMaxEvents`. -/
def softMaxEvents : Nat := 256

def depth (q : RdpInputQueue) : Nat :=
  q.reliableEvents.length
    + if q.pendingMouseMove.isSome then 1 else 0

def updateMaxDepth (q : RdpInputQueue) : RdpInputQueue :=
  if q.depth > q.maxDepth then { q with maxDepth := q.depth } else q

def enqueueMouseMove (q : RdpInputQueue) (event : RdpQueuedInputEvent) :
    RdpInputQueue × RdpInputEnqueueResult :=
  if q.pendingMouseMove.isSome then
    ({ q with
      pendingMouseMove := some event
      droppedMouseMoves := q.droppedMouseMoves + 1 }, .replacedMouseMove)
  else
    (updateMaxDepth { q with pendingMouseMove := some event }, .enqueued)

def flushPendingMouseMove (q : RdpInputQueue) : RdpInputQueue :=
  match q.pendingMouseMove with
  | none => q
  | some move =>
    { q with
      reliableEvents := q.reliableEvents ++ [move]
      pendingMouseMove := none }

/-- The rest of `enqueue`, the waiting move flushed. -/
def pushReliable (q : RdpInputQueue) (event : RdpQueuedInputEvent) :
    RdpInputQueue :=
  updateMaxDepth
    { q with
      nonDisposableOverflow := q.nonDisposableOverflow
        + if q.depth ≥ softMaxEvents then 1 else 0
      textUnitDepth := q.textUnitDepth + event.text.length
      reliableEvents := q.reliableEvents ++ [event] }

def enqueue (q : RdpInputQueue) (event : RdpQueuedInputEvent) :
    RdpInputQueue × RdpInputEnqueueResult :=
  if event.isMouseMove then q.enqueueMouseMove event
  else (q.flushPendingMouseMove.pushReliable event, .enqueued)

def pop (q : RdpInputQueue) : Option RdpQueuedInputEvent × RdpInputQueue :=
  match q.reliableEvents with
  | event :: rest =>
    (some event,
      { q with
        reliableEvents := rest
        textUnitDepth := q.textUnitDepth - event.text.length })
  | [] =>
    match q.pendingMouseMove with
    | none => (none, q)
    | some event => (some event, { q with pendingMouseMove := none })

def clear (q : RdpInputQueue) : RdpInputQueue :=
  { q with
    reliableEvents := []
    pendingMouseMove := none
    textUnitDepth := 0 }

def resetMetrics (q : RdpInputQueue) : RdpInputQueue :=
  { q with
    maxDepth := q.depth
    droppedMouseMoves := 0
    droppedNonDisposable := 0
    nonDisposableOverflow := 0 }

-- ================================ contents

/-- The queued events, in the order `pop` gives them out. -/
def contents (q : RdpInputQueue) : List RdpQueuedInputEvent :=
  q.reliableEvents ++ q.pendingMouseMove.toList

/-- The text units of some events. -/
def textUnits (events : List RdpQueuedInputEvent) : Nat :=
  (events.map fun event => event.text.length).sum

/-- The counters tell of the contents, and the slot of the moves. -/
structure Counted (q : RdpInputQueue) : Prop where
  text : q.textUnitDepth = textUnits q.contents
  depth_le : q.depth ≤ q.maxDepth
  /-- Only a move waits in the slot. -/
  pending : ∀ event, q.pendingMouseMove = some event →
    event.isMouseMove = true
  /-- The queue ends with another event than a move. -/
  barrier : ∀ init event, q.reliableEvents = init ++ [event] →
    event.isMouseMove = false

theorem depth_eq (q : RdpInputQueue) : q.depth = q.contents.length := by
  unfold depth contents
  cases q.pendingMouseMove <;> simp

theorem textUnits_append (events events' : List RdpQueuedInputEvent) :
    textUnits (events ++ events') = textUnits events + textUnits events' := by
  unfold textUnits
  rw [List.map_append, List.sum_append]

@[simp] theorem textUnits_singleton (event : RdpQueuedInputEvent) :
    textUnits [event] = event.text.length := by
  simp [textUnits]

variable {event : RdpQueuedInputEvent}

theorem textUnits_move
    (h : event.isMouseMove = true) : event.text.length = 0 := by
  rw [event.move_text h]
  rfl

/-- `updateMaxDepth` only raises the high-water mark. -/
theorem updateMaxDepth_eq (q : RdpInputQueue) :
    q.updateMaxDepth = { q with maxDepth := max q.maxDepth q.depth } := by
  unfold updateMaxDepth
  split
  · next h => rw [max_eq_right (Nat.le_of_lt h)]
  · next h => rw [max_eq_left (Nat.le_of_not_lt h)]

variable {q : RdpInputQueue}

/-- A move joins the contents, or takes the place of the one that ends
them. -/
theorem contents_enqueue_move (hmove : event.isMouseMove = true) :
    (q.enqueue event).1.contents = q.reliableEvents ++ [event]
      ∧ (q.enqueue event).1.reliableEvents = q.reliableEvents
      ∧ (q.enqueue event).1.pendingMouseMove = some event
      ∧ (q.enqueue event).1.textUnitDepth = q.textUnitDepth
      ∧ (q.enqueue event).1.depth = q.reliableEvents.length + 1
      ∧ q.maxDepth ≤ (q.enqueue event).1.maxDepth
      ∧ (q.pendingMouseMove = none →
        q.reliableEvents.length + 1 ≤ (q.enqueue event).1.maxDepth) := by
  unfold enqueue
  rw [if_pos hmove]
  unfold enqueueMouseMove
  cases hpending : q.pendingMouseMove with
  | some move => exact ⟨rfl, rfl, rfl, rfl, rfl, le_rfl, nofun⟩
  | none =>
    rw [if_neg (by simp), updateMaxDepth_eq]
    exact ⟨rfl, rfl, rfl, rfl, rfl, le_max_left _ _,
      fun _ => le_max_right _ _⟩

/-- Any other event stands behind all that was queued. -/
theorem contents_enqueue_other (hmove : event.isMouseMove = false) :
    (q.enqueue event).1.reliableEvents = q.contents ++ [event]
      ∧ (q.enqueue event).1.pendingMouseMove = none
      ∧ (q.enqueue event).1.textUnitDepth
        = q.textUnitDepth + event.text.length
      ∧ (q.enqueue event).1.depth ≤ (q.enqueue event).1.maxDepth := by
  have hflush : q.flushPendingMouseMove.reliableEvents = q.contents
      ∧ q.flushPendingMouseMove.pendingMouseMove = none
      ∧ q.flushPendingMouseMove.textUnitDepth = q.textUnitDepth := by
    unfold flushPendingMouseMove contents
    cases hpending : q.pendingMouseMove with
    | none => exact ⟨(List.append_nil _).symm, hpending, rfl⟩
    | some move => exact ⟨rfl, rfl, rfl⟩
  obtain ⟨hreliable, hpending, htext⟩ := hflush
  unfold enqueue
  rw [if_neg (by rw [hmove]; exact Bool.false_ne_true)]
  unfold pushReliable
  rw [updateMaxDepth_eq]
  refine ⟨?_, hpending, ?_, le_max_right _ _⟩
  · rw [← hreliable]
  · rw [← htext]

theorem Counted.init : Counted {} where
  text := rfl
  depth_le := le_rfl
  pending _ h := by cases h
  barrier init event h := by simp at h

theorem Counted.enqueue (h : Counted q) (event : RdpQueuedInputEvent) :
    Counted (q.enqueue event).1 := by
  by_cases hmove : event.isMouseMove = true
  · obtain ⟨hcontents, hreliable, hpending, htext, hdepth, hmax, hgrow⟩ :=
      contents_enqueue_move (q := q) hmove
    constructor
    · rw [htext, hcontents, h.text, contents, textUnits_append,
        textUnits_append, textUnits_singleton, textUnits_move hmove]
      cases hold : q.pendingMouseMove with
      | none => rfl
      | some move =>
        show _ + textUnits [move] = _
        rw [textUnits_singleton, textUnits_move (h.pending move hold)]
    · rw [hdepth]
      cases hold : q.pendingMouseMove with
      | none => exact hgrow hold
      | some move =>
        have hle := h.depth_le
        unfold depth at hle
        rw [hold, Option.isSome_some, if_pos rfl] at hle
        exact hle.trans hmax
    · intro event' hevent
      rw [hpending] at hevent
      cases hevent
      exact hmove
    · rw [hreliable]
      exact h.barrier
  · have hother : event.isMouseMove = false :=
      Bool.eq_false_of_not_eq_true hmove
    obtain ⟨hreliable, hpending, htext, hdepth⟩ :=
      contents_enqueue_other (q := q) hother
    constructor
    · rw [htext, contents, hreliable, hpending, Option.toList_none,
        List.append_nil, textUnits_append, textUnits_singleton, h.text]
    · exact hdepth
    · rw [hpending]
      exact nofun
    · intro init event' hevent
      rw [hreliable] at hevent
      obtain ⟨-, hsame⟩ := List.append_inj' hevent rfl
      rw [List.singleton_inj] at hsame
      exact hsame ▸ hother

theorem pop_cons {rest : List RdpQueuedInputEvent}
    (h : q.reliableEvents = event :: rest) :
    q.pop = (some event,
      { q with
        reliableEvents := rest
        textUnitDepth := q.textUnitDepth - event.text.length }) := by
  unfold pop
  rw [h]

theorem pop_nil (h : q.reliableEvents = []) :
    q.pop = (q.pendingMouseMove, { q with pendingMouseMove := none }) := by
  obtain ⟨events, pending⟩ := q
  have hnil : events = [] := h
  subst hnil
  cases pending <;> rfl

/-- `pop` gives out the first of the contents. -/
theorem contents_pop (q : RdpInputQueue) :
    q.pop.1 = q.contents.head? ∧ q.pop.2.contents = q.contents.tail := by
  unfold contents
  cases hreliable : q.reliableEvents with
  | cons event rest =>
    rw [pop_cons hreliable]
    exact ⟨rfl, rfl⟩
  | nil =>
    rw [pop_nil hreliable]
    dsimp only
    rw [hreliable]
    cases q.pendingMouseMove <;> exact ⟨rfl, rfl⟩

theorem Counted.pop (h : Counted q) : Counted q.pop.2 := by
  have htext := h.text
  have hdepth := h.depth_le
  unfold contents at htext
  unfold depth at hdepth
  cases hreliable : q.reliableEvents with
  | cons event rest =>
    rw [hreliable] at htext hdepth
    rw [pop_cons hreliable]
    constructor
    · show q.textUnitDepth - event.text.length
        = textUnits (rest ++ q.pendingMouseMove.toList)
      have hsplit : textUnits (event :: rest
          ++ q.pendingMouseMove.toList)
          = event.text.length
            + textUnits (rest ++ q.pendingMouseMove.toList) := by
        simp [textUnits]
      omega
    · show rest.length + (if q.pendingMouseMove.isSome then 1 else 0)
        ≤ q.maxDepth
      rw [List.length_cons] at hdepth
      omega
    · exact h.pending
    · intro init event' hevent
      have hrest : rest = init ++ [event'] := hevent
      refine h.barrier (event :: init) event' ?_
      rw [hreliable, hrest]
      rfl
  | nil =>
    rw [hreliable, List.nil_append] at htext
    rw [pop_nil hreliable]
    constructor
    · show q.textUnitDepth = textUnits (q.reliableEvents ++ [])
      rw [hreliable, htext]
      cases hpending : q.pendingMouseMove with
      | none => rfl
      | some event =>
        show textUnits [event] = 0
        rw [textUnits_singleton,
          textUnits_move (h.pending event hpending)]
    · show q.reliableEvents.length + 0 ≤ q.maxDepth
      rw [hreliable]
      exact Nat.zero_le _
    · exact nofun
    · exact h.barrier

theorem Counted.clear (q : RdpInputQueue) : Counted q.clear where
  text := rfl
  depth_le := Nat.zero_le _
  pending _ hnone := by cases hnone
  barrier init event hnil := by simp [RdpInputQueue.clear] at hnil

theorem Counted.resetMetrics (h : Counted q) : Counted q.resetMetrics :=
  { h with depth_le := le_rfl }

end RdpInputQueue

-- ============================== refinement

/-- The queue with what it gave out. -/
structure InputSession where
  queue : RdpInputQueue := {}
  popped : List RdpQueuedInputEvent := []

def InputSession.step (s : InputSession) :
    QueueOp RdpQueuedInputEvent → InputSession
  | .enqueue event => { s with queue := (s.queue.enqueue event).1 }
  | .pop =>
    { queue := s.queue.pop.2
      popped := s.popped ++ s.queue.pop.1.toList }

/-- The runs of pointer moves. -/
abbrev MoveRuns := RunLedger RdpQueuedInputEvent

abbrev MoveRuns.step : MoveRuns → QueueOp RdpQueuedInputEvent → MoveRuns :=
  RunLedger.step RdpQueuedInputEvent.isMouseMove

/-- The session shows the runs: what it gave out are those that left,
and what is queued are the others. -/
structure InputSession.Refines (s : InputSession) (l : MoveRuns) : Prop where
  counted : s.queue.Counted
  popped : s.popped = l.popped
  contents : s.queue.contents = l.contents
  collapsed : l.Collapsed RdpQueuedInputEvent.isMouseMove

namespace InputSession

variable {s : InputSession} {l : MoveRuns}

theorem Refines.init : Refines {} {} where
  counted := .init
  popped := rfl
  contents := rfl
  collapsed := .init

/-- A run joins behind what is queued. -/
theorem Refines.append (h : Refines s l) (event : RdpQueuedInputEvent)
    {s' : InputSession} {run : Run RdpQueuedInputEvent}
    (hlast : run.last = event) (hcounted : s'.queue.Counted)
    (hpopped : s'.popped = s.popped)
    (hcontents : s'.queue.contents = s.queue.contents ++ [event])
    (hcollapsed : RunLedger.Collapsed RdpQueuedInputEvent.isMouseMove
      { l with runs := l.runs ++ [run] }) :
    Refines s' { l with runs := l.runs ++ [run] } where
  counted := hcounted
  popped := by
    rw [hpopped, h.popped, RunLedger.popped, RunLedger.popped,
      List.take_append_of_le_length h.collapsed.left_le]
  contents := by
    rw [hcontents, h.contents, RunLedger.contents, RunLedger.contents,
      List.drop_append_of_le_length h.collapsed.left_le, List.map_append,
      List.map_singleton, hlast]
  collapsed := hcollapsed

theorem Refines.enqueue (h : Refines s l) (event : RdpQueuedInputEvent) :
    Refines (s.step (.enqueue event)) (MoveRuns.step l (.enqueue event)) := by
  have hcounted := h.counted.enqueue event
  have hcollapsed := h.collapsed.step (.enqueue event)
  have hcases := l.enqueue_cases (p := RdpQueuedInputEvent.isMouseMove) event
  change RunLedger.Collapsed _ (l.enqueue _ event) at hcollapsed
  change Refines _ (l.enqueue _ event)
  rcases hcases with ⟨init, run, hruns, hmove, hlast, hleft, heq⟩
    | ⟨hfresh, heq⟩
  · -- the run that ends the ledger is the waiting move
    rw [heq] at hcollapsed ⊢
    have hcontents : s.queue.contents
        = (init.drop l.left).map Run.last ++ [run.last] := by
      rw [h.contents, RunLedger.contents, hruns,
        List.drop_append_of_le_length hleft, List.map_append,
        List.map_singleton]
    obtain ⟨hnew, -, -, -, -, -, -⟩ :=
      RdpInputQueue.contents_enqueue_move (q := s.queue) hmove
    have hreliable : s.queue.reliableEvents
        = (init.drop l.left).map Run.last := by
      unfold RdpInputQueue.contents at hcontents
      cases hpending : s.queue.pendingMouseMove with
      | none =>
        rw [hpending, Option.toList_none, List.append_nil] at hcontents
        have := h.counted.barrier _ _ hcontents
        rw [hlast] at this
        cases this
      | some move =>
        rw [hpending, Option.toList_some] at hcontents
        exact (List.append_inj' hcontents rfl).1
    refine ⟨hcounted, ?_, ?_, hcollapsed⟩
    · show s.popped = _
      rw [h.popped, RunLedger.popped, RunLedger.popped, hruns,
        List.take_append_of_le_length hleft,
        List.take_append_of_le_length hleft]
    · show (s.queue.enqueue event).1.contents = _
      rw [hnew, hreliable, RunLedger.contents,
        List.drop_append_of_le_length hleft, List.map_append]
      rfl
  · rw [heq] at hcollapsed ⊢
    refine h.append event rfl hcounted rfl ?_ hcollapsed
    show (s.queue.enqueue event).1.contents = _
    by_cases hmove : event.isMouseMove = true
    · obtain ⟨hnew, -, -, -, -, -, -⟩ :=
        RdpInputQueue.contents_enqueue_move (q := s.queue) hmove
      rw [hnew]
      -- a waiting move would be the run that takes this one in
      cases hpending : s.queue.pendingMouseMove with
      | none =>
        unfold RdpInputQueue.contents
        rw [hpending, Option.toList_none, List.append_nil]
      | some move =>
        exfalso
        have hcontents : s.queue.reliableEvents ++ [move]
            = (l.runs.drop l.left).map Run.last := by
          have := h.contents
          unfold RdpInputQueue.contents at this
          rwa [hpending] at this
        rcases List.eq_nil_or_concat l.runs with hnil
          | ⟨init, run, hruns⟩
        · rw [hnil] at hcontents
          simp at hcontents
        · rw [List.concat_eq_append] at hruns
          have hlen : l.left ≤ init.length := by
            by_contra hlt
            rw [List.drop_eq_nil_of_le] at hcontents
            · simp at hcontents
            · rw [hruns, List.length_append, List.length_singleton]
              omega
          rw [hruns, List.drop_append_of_le_length hlen,
            List.map_append, List.map_singleton] at hcontents
          obtain ⟨-, hsame⟩ := List.append_inj' hcontents rfl
          rw [List.singleton_inj] at hsame
          have hkind := h.counted.pending move hpending
          have hleft := hfresh init run hruns hmove (hsame ▸ hkind)
          rw [hruns, List.length_append, List.length_singleton] at hleft
          omega
    · obtain ⟨hreliable, hpending, -, -⟩ :=
        RdpInputQueue.contents_enqueue_other (q := s.queue)
          (Bool.eq_false_of_not_eq_true hmove)
      show (s.queue.enqueue event).1.reliableEvents
        ++ (s.queue.enqueue event).1.pendingMouseMove.toList = _
      rw [hreliable, hpending, Option.toList_none, List.append_nil]

theorem Refines.pop (h : Refines s l) :
    Refines (s.step .pop) (MoveRuns.step l .pop) := by
  obtain ⟨hhead, htail⟩ := s.queue.contents_pop
  obtain ⟨hpopped, hcontents⟩ := h.collapsed.pop
  refine ⟨h.counted.pop, ?_, ?_, h.collapsed.step .pop⟩
  · show s.popped ++ s.queue.pop.1.toList = _
    rw [hhead, h.contents, h.popped]
    exact hpopped.symm
  · show s.queue.pop.2.contents = _
    rw [htail, h.contents]
    exact hcontents.symm

theorem Refines.step (h : Refines s l) (op : QueueOp RdpQueuedInputEvent) :
    Refines (s.step op) (MoveRuns.step l op) := by
  cases op with
  | enqueue event => exact h.enqueue event
  | pop => exact h.pop

theorem refines_run (ops : List (QueueOp RdpQueuedInputEvent)) :
    Refines (exec step {} ops) (exec MoveRuns.step {} ops) := by
  induction ops using List.reverseRecOn with
  | nil => exact .init
  | append_singleton ops op ih =>
    rw [Lib.exec_append, Lib.exec_append]
    exact ih.step op

/-- The runs of a run are what was enqueued. -/
theorem elements_run (ops : List (QueueOp RdpQueuedInputEvent)) :
    (exec MoveRuns.step {} ops).runs.flatMap Run.elements
      = enqueued ops := by
  induction ops using List.reverseRecOn with
  | nil => rfl
  | append_singleton ops op ih =>
    rw [Lib.exec_append]
    refine (RunLedger.elements_step _ op).trans ?_
    rw [ih]
    exact List.filterMap_append.symm

/-- The queue is a FIFO that collapses pointer moves: what it gave out
and what it holds are, in order, the last events of the runs the
enqueued events are cut into, each a single event or a run of moves, and
two runs of moves follow each other only if the entry of the first had
been popped before the second began; every other event is there once, in
its place, and the depths are those of what is queued. -/
theorem input_queue_collapses (ops : List (QueueOp RdpQueuedInputEvent)) :
    let s := exec step {} ops
    let l := exec MoveRuns.step {} ops
    (s.popped = (l.runs.take l.left).map Run.last
        ∧ s.queue.contents = (l.runs.drop l.left).map Run.last)
      ∧ l.runs.flatMap Run.elements = enqueued ops
      ∧ (∀ run ∈ l.runs, run.replaced = []
        ∨ ∀ event ∈ run.elements, event.isMouseMove = true)
      ∧ (∀ (k : Nat) (a b : Run RdpQueuedInputEvent), l.runs[k]? = some a →
        l.runs[k + 1]? = some b → a.last.isMouseMove = true →
        b.last.isMouseMove = true → k < b.begun)
      ∧ (s.popped ++ s.queue.contents).Sublist (enqueued ops)
      ∧ (s.popped ++ s.queue.contents).filter (fun e => !e.isMouseMove)
        = (enqueued ops).filter (fun e => !e.isMouseMove)
      ∧ s.queue.depth = s.queue.contents.length
      ∧ s.queue.textUnitDepth
        = RdpInputQueue.textUnits s.queue.contents := by
  intro s l
  have h : Refines s l := refines_run ops
  have helements : l.runs.flatMap Run.elements = enqueued ops :=
    elements_run ops
  have hall : s.popped ++ s.queue.contents = l.runs.map Run.last := by
    rw [h.popped, h.contents]
    exact l.popped_append_contents
  refine ⟨⟨h.popped, h.contents⟩, helements, h.collapsed.kind,
    h.collapsed.maximal, ?_, ?_, s.queue.depth_eq, h.counted.text⟩
  · rw [hall, ← helements]
    exact RunLedger.last_sublist l.runs
  · rw [hall, ← helements]
    exact h.collapsed.filter_last

end InputSession

end RemoteDesk.Rdp
