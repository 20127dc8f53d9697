/-
The touch stream the peer receives is well formed.

# The phase

`touchPhase` reads off a list of messages where its touch stream
stands. The three flags of the inbox are the phase of everything handed
out or queued (`Staged`), which is why `enqueue` can decide from them
what it lets in: deltas while the stream is active, one scale end, and
one pan end after either.

# The result

`touch_wellFormed` is about every run in which no two waiting scales
fold to zero. Without that condition the message that goes out is an end
marker nobody sent (`touch_ended_by_fold`): the stream flags still say
active, and the counters have not counted it.
-/
import RemoteDesk.Inbox.TouchFolds

namespace RemoteDesk.Inbox

open Lib

-- =================================== phase

inductive TouchPhase
  | idle
  | active
  | scaleEnded
  | panEnded
deriving DecidableEq, Repr

def TouchPhase.after (phase : TouchPhase) : ControlMsg → TouchPhase
  | .touchPanStart .. => .active
  | .touchScale v =>
    if v ≠ 0 then phase
    else if phase = .active then .scaleEnded else phase
  | .touchPanEnd .. => .panEnded
  | _ => phase

/-- Where the touch stream of some messages stands. -/
def touchPhase (ms : List ControlMsg) : TouchPhase :=
  ms.foldl .after .idle

/-- The messages a touch stream is made of. -/
def ControlMsg.isTouch (m : ControlMsg) : Bool :=
  m.isTouchStart || m.isTouchEnd || m.isTouchUpdate

/-- Some start has not been followed by a message of the kind `ends`. -/
def OpenSince (ends : ControlMsg → Bool) (ms : List ControlMsg) : Prop :=
  ∃ before start after, ms = before ++ start :: after
    ∧ start.isTouchStart = true ∧ ∀ m ∈ after, ends m = false

theorem touchPhase_snoc (ms : List ControlMsg) (m : ControlMsg) :
    touchPhase (ms ++ [m]) = (touchPhase ms).after m := by
  simp [touchPhase]

variable {m : ControlMsg} {ms : List ControlMsg}

theorem TouchPhase.after_update {phase : TouchPhase}
    (h : m.isTouchUpdate = true) : phase.after m = phase := by
  cases m <;> first | rfl | cases h | skip
  case touchScale v =>
    have hv : 0 < v := by simpa [ControlMsg.isTouchUpdate] using h
    exact if_pos (by omega)

theorem TouchPhase.after_other {phase : TouchPhase}
    (h : m.isTouch = false) : phase.after m = phase := by
  cases m <;> first | rfl | cases h | skip
  case touchScale v =>
    have hv : v ≠ 0 := by
      intro hzero
      subst hzero
      cases h
    exact if_pos hv

/-- Deltas leave the phase. -/
theorem touchPhase_append_updates (ms : List ControlMsg)
    {updates : List ControlMsg}
    (h : ∀ m ∈ updates, m.isTouchUpdate = true) :
    touchPhase (ms ++ updates) = touchPhase ms := by
  induction updates using List.reverseRecOn with
  | nil => rw [List.append_nil]
  | append_singleton updates m ih =>
    rw [← List.append_assoc, touchPhase_snoc,
      TouchPhase.after_update (h m (by simp))]
    exact ih fun x hx => h x (List.mem_append_left _ hx)

theorem touchPhase_filter (ms : List ControlMsg) :
    touchPhase (ms.filter ControlMsg.isTouch) = touchPhase ms := by
  induction ms using List.reverseRecOn with
  | nil => rfl
  | append_singleton ms m ih =>
    rw [List.filter_append, touchPhase_snoc]
    cases hm : m.isTouch with
    | true => rw [List.filter_cons_of_pos hm, List.filter_nil,
        touchPhase_snoc, ih]
    | false => rw [List.filter_cons_of_neg (by simp [hm]),
        List.filter_nil, List.append_nil, ih, TouchPhase.after_other hm]

/-- A phase that only a start enters, and that a message of the kind
`ends` leaves, has had a start and no such message since. -/
private theorem openSince_of_phase {ends : ControlMsg → Bool}
    {inside : TouchPhase → Prop} (hidle : ¬ inside .idle)
    (hstep : ∀ phase m, m.isTouchStart = false →
      inside (phase.after m) → inside phase ∧ ends m = false)
    {ms : List ControlMsg} (h : inside (touchPhase ms)) :
    OpenSince ends ms := by
  induction ms using List.reverseRecOn with
  | nil => exact absurd h hidle
  | append_singleton ms m ih =>
    rw [touchPhase_snoc] at h
    cases hstart : m.isTouchStart with
    | true => exact ⟨ms, m, [], rfl, hstart, by simp⟩
    | false =>
      obtain ⟨hbefore, hend⟩ := hstep _ m hstart h
      obtain ⟨before, start, after, rfl, hs, hafter⟩ := ih hbefore
      refine ⟨before, start, after ++ [m], by simp, hs, ?_⟩
      intro x hx
      rcases List.mem_append.mp hx with hx | hx
      · exact hafter x hx
      · rw [List.mem_singleton.mp hx]
        exact hend

/-- An active stream has not been ended since its start. -/
theorem openSince_of_active (h : touchPhase ms = .active) :
    OpenSince ControlMsg.isTouchEnd ms := by
  refine @openSince_of_phase _ (fun phase => phase = .active)
    (by decide) (fun phase m hstart hafter => ?_) ms h
  cases m <;> first
    | exact ⟨hafter, rfl⟩
    | (cases hafter; done)
    | cases hstart
  case touchScale v =>
    by_cases hzero : v = 0
    · subst hzero
      cases phase <;> cases hafter
    · rw [TouchPhase.after, if_pos hzero] at hafter
      exact ⟨hafter, decide_eq_false hzero⟩

/-- A stream that can take a pan end has had none since its start. -/
theorem openSince_of_open
    (h : touchPhase ms = .active ∨ touchPhase ms = .scaleEnded) :
    OpenSince ControlMsg.isPanEnd ms := by
  refine @openSince_of_phase _
    (fun phase => phase = .active ∨ phase = .scaleEnded)
    (by decide) (fun phase m hstart hafter => ?_) ms h
  cases m <;> first
    | exact ⟨hafter, rfl⟩
    | (cases hstart; done)
    | (rcases hafter with h | h <;> cases h)
    | skip
  case touchScale v =>
    refine ⟨?_, rfl⟩
    by_cases hzero : v = 0
    · subst hzero
      cases phase <;> first
        | exact .inl rfl
        | exact .inr rfl
        | (rcases hafter with h | h <;> cases h)
    · rwa [TouchPhase.after, if_pos hzero] at hafter

-- ================================== staged

/-- What may stand behind `pre` in a touch stream. -/
def TouchAllowed (pre : List ControlMsg) (m : ControlMsg) : Prop :=
  (m.isTouchUpdate = true → touchPhase pre = .active)
    ∧ (m.isPanEnd = true →
      touchPhase pre = .active ∨ touchPhase pre = .scaleEnded)

namespace Strokes

/-- The touch messages handed out or queued, in order. -/
def touchLine (s : Strokes) : List ControlMsg :=
  (s.delivered ++ s.pointers.queues.reliable.map (·.message)).filter
    ControlMsg.isTouch

def phase (s : Strokes) : TouchPhase := touchPhase s.touchLine

/-- The flags and the counters say what is queued. -/
structure Staged (s : Strokes) : Prop where
  line : EveryAt TouchAllowed s.touchLine
  active : s.pointers.touchActive = decide (s.phase = .active)
  closed : s.pointers.touchScaleEndPending
    = decide (s.phase = .scaleEnded ∨ s.phase = .panEnded)
  panEnded : s.pointers.touchPanEndEnqueued
    = decide (s.phase = .panEnded)
  slot : s.pointers.queues.touchUpdate ≠ none → s.phase = .active
  scaleMarkers : s.pointers.pendingTouchScaleEndMarkers
    = (s.pointers.queues.reliable.map (·.message)).countP
      ControlMsg.isScaleEnd
  panMarkers : s.pointers.pendingTouchPanEnds
    = (s.pointers.queues.reliable.map (·.message)).countP
      ControlMsg.isPanEnd

theorem Staged.start (gates : ControlInbox) :
    Staged (Trace.start gates).strokes where
  line := everyAt_nil _
  active := rfl
  closed := rfl
  panEnded := rfl
  slot h := absurd rfl h
  scaleMarkers := rfl
  panMarkers := rfl

end Strokes

/-- Deltas may go where the stream is active. -/
theorem TouchAllowed.append_updates {l updates : List ControlMsg}
    (hl : EveryAt TouchAllowed l) (hphase : updates ≠ [] →
      touchPhase l = .active)
    (h : ∀ m ∈ updates, m.isTouchUpdate = true) :
    EveryAt TouchAllowed (l ++ updates) := by
  refine hl.append fun m hm pre hpre => ⟨fun _ => ?_, fun hend => ?_⟩
  · rw [touchPhase_append_updates l fun x hx => h x (hpre x hx)]
    exact hphase (List.ne_nil_of_mem hm)
  · have hupdate := h m hm
    cases m <;> first | (cases hend; done) | cases hupdate

/-- Taking deltas out leaves a stream as well formed as it was. -/
theorem TouchAllowed.filter_updates {l : List ControlMsg}
    {keep : ControlMsg → Bool}
    (hkeep : ∀ m ∈ ms, keep m = false → m.isTouchUpdate = true)
    (h : EveryAt TouchAllowed (l ++ ms)) :
    EveryAt TouchAllowed (l ++ ms.filter keep)
      ∧ touchPhase (l ++ ms.filter keep) = touchPhase (l ++ ms) := by
  induction ms using List.reverseRecOn with
  | nil => exact ⟨h, rfl⟩
  | append_singleton ms m ih =>
    rw [← List.append_assoc, everyAt_snoc] at h
    obtain ⟨ihline, ihphase⟩ := ih
      (fun x hx => hkeep x (List.mem_append_left _ hx)) h.1
    rw [List.filter_append, ← List.append_assoc, ← List.append_assoc,
      touchPhase_snoc, ← ihphase]
    cases hm : keep m with
    | true =>
      rw [List.filter_cons_of_pos hm, List.filter_nil, everyAt_snoc,
        touchPhase_snoc]
      refine ⟨⟨ihline, ?_⟩, rfl⟩
      unfold TouchAllowed
      rw [ihphase]
      exact h.2
    | false =>
      rw [List.filter_cons_of_neg (by simp [hm]), List.filter_nil,
        List.append_nil,
        TouchPhase.after_update (hkeep m (by simp) hm)]
      exact ⟨ihline, rfl⟩

namespace Pointers

variable {p : Pointers}

/-- What a flush queues of a touch stream are deltas. -/
theorem isTouchUpdate_of_touchEntries (hp : p.Scaled)
    {e : SequencedControl} (he : e ∈ p.queues.touchEntries) :
    e.message.isTouchUpdate = true := by
  unfold Queues.touchEntries at he
  cases hq : p.queues.touchUpdate with
  | none => rw [hq] at he; cases he
  | some pending =>
    rw [hq] at he
    rcases List.mem_append.mp he with he | he
    · obtain ⟨v, hv, rfl⟩ := List.mem_map.mp he
      have hscale : p.scale = some v := by
        simpa [scale, hq] using hv
      exact decide_eq_true (hp v hscale)
    · obtain ⟨_, -, rfl⟩ := List.mem_map.mp he
      rfl

/-- Nothing a flush queues is a touch marker. -/
theorem isTouchEnd_of_flushed (hp : p.Scaled) {e : SequencedControl}
    (he : e ∈ p.queues.flushed) : e.message.isTouchEnd = false := by
  rcases Queues.mem_flushed.mp he with he | he
  · have hupdate := isTouchUpdate_of_touchEntries hp he
    cases hm : e.message <;> rw [hm] at hupdate <;> first
      | rfl
      | cases hupdate
      | skip
    case touchScale v =>
      have hv : 0 < v := by simpa [ControlMsg.isTouchUpdate] using hupdate
      exact decide_eq_false (by omega)
  · obtain ⟨w, -, rfl⟩ := List.mem_map.mp he
    rfl

/-- The touch messages of a flush are the slot's. -/
theorem filter_isTouch_flushed (hp : p.Scaled) :
    (p.queues.flushed.map (·.message)).filter ControlMsg.isTouch
      = p.queues.touchEntries.map (·.message) := by
  have htouch : (p.queues.touchEntries.map (·.message)).filter
      ControlMsg.isTouch = p.queues.touchEntries.map (·.message) := by
    refine List.filter_eq_self.mpr fun m hm => ?_
    obtain ⟨e, he, rfl⟩ := List.mem_map.mp hm
    simp [ControlMsg.isTouch, isTouchUpdate_of_touchEntries hp he]
  rw [← htouch]
  unfold Queues.flushed Queues.touchEntries
  have hwheel : ∀ w : PendingMouseWheel2D,
      w.entry.message.isTouch = false := fun _ => rfl
  cases p.queues.touchUpdate <;> cases p.queues.mouseWheel2D
  case some.some touch wheel =>
    dsimp only
    split <;> simp [hwheel]
  all_goals simp [hwheel]

end Pointers

namespace Strokes

variable {s : Strokes}

/-- The deltas in the slot go behind what is queued. -/
private theorem line_flush (hs : s.Staged) (hp : s.pointers.Scaled) :
    EveryAt TouchAllowed
        (s.touchLine ++ s.pointers.queues.touchEntries.map (·.message))
      ∧ touchPhase (s.touchLine
          ++ s.pointers.queues.touchEntries.map (·.message))
        = s.phase := by
  have hupdates : ∀ m ∈ s.pointers.queues.touchEntries.map (·.message),
      m.isTouchUpdate = true := by
    intro m hm
    obtain ⟨e, he, rfl⟩ := List.mem_map.mp hm
    exact Pointers.isTouchUpdate_of_touchEntries hp he
  refine ⟨TouchAllowed.append_updates hs.line (fun hne => ?_) hupdates,
    touchPhase_append_updates _ hupdates⟩
  refine hs.slot fun hnone => hne ?_
  simp [Queues.touchEntries, hnone]

/-- A message behind a flush, and the line it makes. -/
private theorem line_append (hp : s.pointers.Scaled) (m : ControlMsg)
    {p' : Pointers} {n : Nat} {accepted : List ControlMsg}
    (hreliable : p'.queues.reliable
      = s.pointers.flush.queues.reliable ++ [⟨n, m⟩]) {next : Nat} :
    touchLine { pointers := p', next, accepted, delivered := s.delivered }
      = s.touchLine ++ s.pointers.queues.touchEntries.map (·.message)
        ++ [m].filter ControlMsg.isTouch := by
  unfold touchLine
  rw [hreliable, Pointers.reliable_flush, List.map_append,
    List.map_append, ← List.append_assoc, ← List.append_assoc,
    List.filter_append, List.filter_append,
    Pointers.filter_isTouch_flushed hp]
  rfl

variable {kind : ControlMsg → Bool} {p' : Pointers}

/-- A flush adds no marker to the deque. -/
private theorem countP_flush (hp : s.pointers.Scaled)
    (hkind : ∀ m, kind m = true → m.isTouchEnd = true) :
    (s.pointers.flush.queues.reliable.map (·.message)).countP kind
      = (s.pointers.queues.reliable.map (·.message)).countP kind := by
  rw [Pointers.reliable_flush, List.map_append, List.countP_append, Nat.add_eq_left,
    List.countP_eq_zero]
  intro m hm hk
  obtain ⟨e, he, rfl⟩ := List.mem_map.mp hm
  have hend := Pointers.isTouchEnd_of_flushed hp he
  rw [hkind _ hk] at hend
  cases hend

/-- The count of a kind of marker after a message behind a flush. -/
private theorem countP_append (hp : s.pointers.Scaled)
    (hkind : ∀ m, kind m = true → m.isTouchEnd = true) (n : Nat)
    (m : ControlMsg) :
    (((s.pointers.flush.append n m).queues.reliable).map
        (·.message)).countP kind
      = (s.pointers.queues.reliable.map (·.message)).countP kind
        + (if kind m = true then 1 else 0) := by
  rw [Pointers.reliable_append, List.map_append, List.countP_append,
    countP_flush hp hkind]
  simp [List.countP_cons]

private theorem isTouchEnd_of_isScaleEnd (m : ControlMsg)
    (h : m.isScaleEnd = true) : m.isTouchEnd = true := by
  cases m <;> first | exact h | cases h

private theorem isTouchEnd_of_isPanEnd (m : ControlMsg)
    (h : m.isPanEnd = true) : m.isTouchEnd = true := by
  cases m <;> first | rfl | cases h

/-- A message behind a flush: the phase is the one after the message,
and the flags and counters have to say so. -/
private theorem Staged.append (hs : s.Staged) (hp : s.pointers.Scaled)
    (hupdate : m.isTouchUpdate = false) (hend : m.isPanEnd = true →
      s.phase = .active ∨ s.phase = .scaleEnded) {n : Nat}
    (hqueues : p'.queues = (s.pointers.flush.append n m).queues)
    (hactive : p'.touchActive = decide (s.phase.after m = .active))
    (hclosed : p'.touchScaleEndPending
      = decide (s.phase.after m = .scaleEnded
        ∨ s.phase.after m = .panEnded)) (hpanEnded : p'.touchPanEndEnqueued
      = decide (s.phase.after m = .panEnded))
    (hscale : p'.pendingTouchScaleEndMarkers
      = s.pointers.pendingTouchScaleEndMarkers
        + (if m.isScaleEnd = true then 1 else 0)) (hpan : p'.pendingTouchPanEnds
      = s.pointers.pendingTouchPanEnds
        + (if m.isPanEnd = true then 1 else 0)) {next : Nat}
    {accepted : List ControlMsg} :
    Staged { pointers := p', next, accepted, delivered := s.delivered } := by
  obtain ⟨hline, hphase⟩ := line_flush hs hp
  have happend := @line_append _ hp m p' n accepted (by rw [hqueues]; rfl) next
  have hafter : EveryAt TouchAllowed
        (touchLine
          { pointers := p', next, accepted, delivered := s.delivered })
      ∧ phase { pointers := p', next, accepted, delivered := s.delivered }
        = s.phase.after m := by
    rw [phase, happend]
    cases hm : m.isTouch with
    | false =>
      rw [List.filter_cons_of_neg (by simp [hm]), List.filter_nil,
        List.append_nil, TouchPhase.after_other hm]
      exact ⟨hline, hphase⟩
    | true =>
      rw [List.filter_cons_of_pos hm, List.filter_nil, everyAt_snoc,
        touchPhase_snoc, hphase]
      refine ⟨⟨hline, fun h => ?_, fun h => ?_⟩, rfl⟩
      · rw [hupdate] at h
        cases h
      · rw [hphase]
        exact hend h
  refine ⟨hafter.1, ?_, ?_, ?_, fun h => ?_, ?_, ?_⟩
  · rw [hafter.2]
    exact hactive
  · rw [hafter.2]
    exact hclosed
  · rw [hafter.2]
    exact hpanEnded
  · exact absurd (by rw [hqueues]; rfl) h
  · rw [hqueues, countP_append hp isTouchEnd_of_isScaleEnd,
      ← hs.scaleMarkers]
    exact hscale
  · rw [hqueues, countP_append hp isTouchEnd_of_isPanEnd,
      ← hs.panMarkers]
    exact hpan

private theorem isTouchUpdate_of_stale (htouch : m.isTouch = true)
    (h : m.isStaleUpdate = true) : m.isTouchUpdate = true := by
  cases m <;> first
    | exact h
    | cases htouch

/-- A display switch takes deltas out of the line. -/
private theorem staged_switch (hs : s.Staged) :
    EveryAt TouchAllowed
        (s.delivered.filter ControlMsg.isTouch
          ++ ((s.pointers.queues.reliable.filter
            (!·.message.isStaleUpdate)).map (·.message)).filter
              ControlMsg.isTouch)
      ∧ touchPhase
        (s.delivered.filter ControlMsg.isTouch
          ++ ((s.pointers.queues.reliable.filter
            (!·.message.isStaleUpdate)).map (·.message)).filter
              ControlMsg.isTouch) = s.phase := by
  have hqueue : ((s.pointers.queues.reliable.filter
        (!·.message.isStaleUpdate)).map (·.message)).filter
          ControlMsg.isTouch
      = ((s.pointers.queues.reliable.map (·.message)).filter
          ControlMsg.isTouch).filter fun m => !m.isStaleUpdate := by
    rw [List.filter_filter, List.filter_map, List.filter_map,
      List.filter_filter]
    simp [Function.comp_def, Bool.and_comm]
  have hline := hs.line
  have hphase : touchPhase _ = s.phase := rfl
  unfold phase at hphase ⊢
  rw [touchLine, List.filter_append] at hline hphase ⊢
  rw [hqueue]
  refine TouchAllowed.filter_updates (fun m hm hkeep => ?_) hline
  exact isTouchUpdate_of_stale (List.mem_filter.mp hm).2
    (by simpa using hkeep)

/-- A display switch takes no marker out of the deque. -/
private theorem countP_switch (hkind : ∀ m, kind m = true → m.isTouchEnd = true)
    (reliable : List SequencedControl) :
    ((reliable.filter (!·.message.isStaleUpdate)).map
        (·.message)).countP kind
      = (reliable.map (·.message)).countP kind := by
  rw [List.countP_map, List.countP_map, List.countP_filter]
  refine List.countP_congr fun e _ => ?_
  have hstale : kind e.message = true →
      e.message.isStaleUpdate = false := by
    intro h
    have hend := hkind _ h
    cases hm : e.message <;> rw [hm] at hend <;> first
      | rfl
      | cases hend
      | skip
    case touchScale v =>
      have hv : v = 0 := by simpa [ControlMsg.isTouchEnd] using hend
      subst hv
      rfl
  simp only [Function.comp_apply, Bool.and_eq_true, Bool.not_eq_true']
  exact ⟨fun h => h.1, fun h => ⟨h, hstale h⟩⟩

/-- Every accepted message keeps the flags and counters in step. -/
theorem Staged.accepts (hs : s.Staged) (hp : s.pointers.Scaled)
    (hm : s.pointers.Accepts s.next m p') {next : Nat}
    {accepted : List ControlMsg} :
    Staged { pointers := p', next, accepted, delivered := s.delivered } := by
  have hactive : s.pointers.touchActive = true → s.phase = .active := by
    intro h
    rw [hs.active] at h
    exact of_decide_eq_true h
  cases hm with
  | flag | move | wheel =>
    exact ⟨hs.line, hs.active, hs.closed, hs.panEnded, hs.slot,
      hs.scaleMarkers, hs.panMarkers⟩
  | scale v hpos hopen =>
    exact ⟨hs.line, hs.active, hs.closed, hs.panEnded,
      fun _ => hactive hopen, hs.scaleMarkers, hs.panMarkers⟩
  | pan x y hopen =>
    exact ⟨hs.line, hs.active, hs.closed, hs.panEnded,
      fun _ => hactive hopen, hs.scaleMarkers, hs.panMarkers⟩
  | switch display generation =>
    obtain ⟨hline, hphase⟩ := staged_switch hs
    rw [← List.filter_append] at hline hphase
    refine ⟨hline, ?_, ?_, ?_, fun h => absurd rfl h, ?_, ?_⟩
    · exact hs.active.trans (by rw [← hphase]; rfl)
    · exact hs.closed.trans (by rw [← hphase]; rfl)
    · exact hs.panEnded.trans (by rw [← hphase]; rfl)
    · exact hs.scaleMarkers.trans
        (countP_switch isTouchEnd_of_isScaleEnd _).symm
    · exact hs.panMarkers.trans
        (countP_switch isTouchEnd_of_isPanEnd _).symm
  | start x y =>
    have hline : touchLine
        { pointers := Pointers.append
            { s.pointers with
              queues := { s.pointers.queues with touchUpdate := none }
              touchActive := true
              touchScaleEndPending := false
              touchPanEndEnqueued := false }
            s.next (.touchPanStart x y)
          next, accepted, delivered := s.delivered }
        = s.touchLine ++ [.touchPanStart x y] := by
      unfold touchLine
      rw [Pointers.reliable_append, List.map_append,
        ← List.append_assoc, List.filter_append]
      rfl
    have hphase : ∀ p : TouchPhase,
        p.after (.touchPanStart x y) = .active := fun _ => rfl
    constructor
    · rw [hline, everyAt_snoc]
      exact ⟨hs.line, nofun, nofun⟩
    · rw [phase, hline, touchPhase_snoc, hphase]; rfl
    · rw [phase, hline, touchPhase_snoc, hphase]; rfl
    · rw [phase, hline, touchPhase_snoc, hphase]; rfl
    · exact fun h => absurd rfl h
    · rw [Pointers.reliable_append, List.map_append, List.countP_append]
      exact hs.scaleMarkers
    · rw [Pointers.reliable_append, List.map_append, List.countP_append]
      exact hs.panMarkers
  | scaleEnd hopen =>
    have hphase := hactive hopen
    have hpan : s.pointers.touchPanEndEnqueued = false := by
      rw [hs.panEnded, hphase]
      rfl
    refine hs.append (m := .touchScale 0) (n := s.next) hp rfl ?_ ?_
      ?_ ?_ ?_ ?_ ?_
    · intro h; cases h
    · rfl
    · rw [hphase]; rfl
    · rw [hphase]; rfl
    · rw [hphase]; exact hpan
    · rfl
    · rfl
  | panEnd x y hend hopen =>
    have hphase : s.phase = .active ∨ s.phase = .scaleEnded := by
      rcases hopen with hopen | hopen
      · exact .inl (hactive hopen)
      · rw [hs.closed] at hopen
        rw [hs.panEnded] at hend
        rcases of_decide_eq_true hopen with h | h
        · exact .inr h
        · exact absurd h (of_decide_eq_false hend)
    refine hs.append (m := .touchPanEnd x y) (n := s.next) hp rfl
      (fun _ => hphase) ?_ ?_ ?_ ?_ ?_ ?_ <;> rfl
  | reliable m hr hstart hend =>
    have hupdate : m.isTouchUpdate = false := by
      cases m <;> first
        | rfl
        | cases hr
        | skip
      case touchScale v =>
        have hv : v ≤ 0 := by simpa [ControlMsg.isReliable] using hr
        exact decide_eq_false (by omega)
    have htouch : m.isTouch = false := by
      simp [ControlMsg.isTouch, hstart, hend, hupdate]
    have hscale : m.isScaleEnd = false := by
      cases h : m.isScaleEnd with
      | false => rfl
      | true => rw [isTouchEnd_of_isScaleEnd m h] at hend; cases hend
    have hpan : m.isPanEnd = false := by
      cases h : m.isPanEnd with
      | false => rfl
      | true => rw [isTouchEnd_of_isPanEnd m h] at hend; cases hend
    refine hs.append hp hupdate (fun h => ?_) rfl ?_ ?_ ?_ ?_ ?_
    · rw [hpan] at h; cases h
    · rw [TouchPhase.after_other htouch]; exact hs.active
    · rw [TouchPhase.after_other htouch]; exact hs.closed
    · rw [TouchPhase.after_other htouch]; exact hs.panEnded
    · rw [hscale]; rfl
    · rw [hpan]; rfl

/-- A message handed out that is no part of a touch stream. -/
private theorem Staged.unseen (hs : s.Staged) {queues : Queues}
    {out : List ControlMsg}
    (hout : out.filter ControlMsg.isTouch = [])
    (hreliable : queues.reliable = s.pointers.queues.reliable)
    (hslot : queues.touchUpdate ≠ none →
      s.pointers.queues.touchUpdate ≠ none) :
    Staged
      { s with
        pointers := { s.pointers with queues := queues }
        delivered := s.delivered ++ out } := by
  have hline : touchLine
      { s with
        pointers := { s.pointers with queues := queues }
        delivered := s.delivered ++ out } = s.touchLine := by
    simp only [touchLine, List.filter_append, hout, List.append_nil,
      hreliable]
  refine ⟨hline ▸ hs.line, ?_, ?_, ?_, fun h => ?_, ?_, ?_⟩
  · rw [phase, hline]; exact hs.active
  · rw [phase, hline]; exact hs.closed
  · rw [phase, hline]; exact hs.panEnded
  · rw [phase, hline]; exact hs.slot (hslot h)
  · rw [hreliable]; exact hs.scaleMarkers
  · rw [hreliable]; exact hs.panMarkers

/-- Every turn of the drain loop keeps the flags and counters in
step. -/
theorem Staged.pops (hs : s.Staged) (ho : s.pointers.Ordered s.next)
    (hp : s.pointers.Scaled) {out : List Delivery}
    (h : s.pointers.Pops out p') :
    Staged
      { s with
        pointers := p'
        delivered := s.delivered ++ out.map (·.message) } := by
  have hquiet : ∀ m : ControlMsg, m.isMove = true ∨ m.isSwitch = true →
      m.isTouch = false := by
    intro m hm
    cases m <;> first | rfl | simp [ControlMsg.isMove,
      ControlMsg.isSwitch] at hm
  cases h with
  | reliable e rest hq =>
    have hline : touchLine
        { s with
          pointers := Pointers.sent
            { s.pointers with
              queues := { s.pointers.queues with reliable := rest } }
            e.message
          delivered :=
            s.delivered ++ [e.delivery].map (·.message) }
        = s.touchLine := by
      simp [touchLine, hq, Pointers.sent]
    refine ⟨hline ▸ hs.line, ?_, ?_, ?_, ?_, ?_, ?_⟩
    · rw [phase, hline]; exact hs.active
    · rw [phase, hline]; exact hs.closed
    · rw [phase, hline]; exact hs.panEnded
    · rw [phase, hline]; exact hs.slot
    · show s.pointers.pendingTouchScaleEndMarkers - _ = _
      rw [hs.scaleMarkers, hq, List.map_cons, List.countP_cons]
      simp [Pointers.sent]
    · show s.pointers.pendingTouchPanEnds - _ = _
      rw [hs.panMarkers, hq, List.map_cons, List.countP_cons]
      simp [Pointers.sent]
  | move e hq =>
    exact hs.unseen (by simp [hquiet e.message
      (.inl (ho.move_kind e hq))]) rfl id
  | switch e hq =>
    exact hs.unseen (by simp [hquiet e.message
      (.inr (ho.switch_kind e hq))]) rfl id
  | wheel pending hq strict => exact hs.unseen rfl rfl id
  | touch pending out rest hq strict split hrest =>
    have hempty := ho.touch_first hq strict
    have hmessages : (out.map SequencedControl.delivery).map (·.message)
        = out.map (·.message) := by simp
    rw [hmessages]
    have hphase := hs.slot (by rw [hq]; exact Option.some_ne_none _)
    have hupdates : ∀ m ∈ out.map (·.message),
        m.isTouchUpdate = true := by
      intro m hm
      obtain ⟨e, he, rfl⟩ := List.mem_map.mp hm
      refine Pointers.isTouchUpdate_of_touchEntries hp ?_
      exact Popped.touch_mem hq split he
    have hline : touchLine
        { s with
          pointers := { s.pointers with
            queues := { s.pointers.queues with touchUpdate := rest } }
          delivered := s.delivered ++ out.map (·.message) }
        = s.touchLine ++ out.map (·.message) := by
      have htouch : (out.map (·.message)).filter ControlMsg.isTouch
          = out.map (·.message) := List.filter_eq_self.mpr fun m hm => by
        simp [ControlMsg.isTouch, hupdates m hm]
      simp only [touchLine, hempty, List.map_nil, List.append_nil,
        List.filter_append, htouch]
    have hsame := touchPhase_append_updates s.touchLine hupdates
    refine ⟨hline ▸ TouchAllowed.append_updates hs.line
      (fun _ => hphase) hupdates, ?_, ?_, ?_, ?_, hs.scaleMarkers,
      hs.panMarkers⟩
    · rw [phase, hline, hsame]; exact hs.active
    · rw [phase, hline, hsame]; exact hs.closed
    · rw [phase, hline, hsame]; exact hs.panEnded
    · rw [phase, hline, hsame]; exact fun _ => hphase

/-- What a step needs and keeps. -/
structure TouchKept (s : Strokes) : Prop where
  ordered : s.pointers.Ordered s.next
  scaled : s.pointers.Scaled
  staged : s.Staged

theorem TouchKept.start (gates : ControlInbox) :
    TouchKept (Trace.start gates).strokes where
  ordered := Trace.ordered_start gates
  scaled _ hv := by cases hv
  staged := .start gates

theorem Step.touchKept {s' : Strokes}
    (h : Strokes.Step ScaleSurvives s s') (hs : s.TouchKept) :
    s'.TouchKept where
  ordered := h.ordered hs.ordered
  scaled := h.scaled (fun _ _ hg => hg) hs.scaled
  staged := by
    cases h with
    | accept m p' hg hm => exact hs.staged.accepts hs.scaled hm
    | skip =>
      exact ⟨hs.staged.line, hs.staged.active, hs.staged.closed,
        hs.staged.panEnded, hs.staged.slot, hs.staged.scaleMarkers,
        hs.staged.panMarkers⟩
    | pop out p' hp => exact hs.staged.pops hs.ordered hs.scaled hp
    | flag m hm =>
      refine hs.staged.unseen ?_ rfl id
      cases m <;> first | rfl | cases hm

end Strokes

-- ================================= results

namespace Trace

/-- What the peer can rely on in a touch stream, and what the inbox
counts of it. -/
structure TouchWellFormed (t : Trace) : Prop where
  /-- A delta goes out between a start and the first end behind it. -/
  deltas : EveryAt (fun pre m => m.isTouchUpdate = true →
      OpenSince ControlMsg.isTouchEnd pre)
    (t.delivered.map (·.message))
  /-- Behind a start goes at most one pan end. -/
  panEnds : EveryAt (fun pre m => m.isPanEnd = true →
      OpenSince ControlMsg.isPanEnd pre)
    (t.delivered.map (·.message))
  /-- An end goes out behind what was accepted before it: of either kind
  of delta, what went out before the end is a cut of what was accepted
  before it, and what went out after of what was accepted after. -/
  ends : ∀ (part : TouchPart) (pre post : List ControlMsg)
      (m : ControlMsg), m.isTouchEnd = true →
    (t.delivered.map (·.message)).filter part.member
      = pre ++ m :: post →
    ∃ before after waiting,
      (t.accepted.map (·.message)).filter part.member
        = before ++ m :: (after ++ waiting)
        ∧ Cut part.rules before pre ∧ Cut part.rules after post
  scaleMarkers : t.inbox.state.pendingTouchScaleEndMarkers
    = (t.inbox.state.reliable.map (·.message)).countP
      ControlMsg.isScaleEnd
  panMarkers : t.inbox.state.pendingTouchPanEnds
    = (t.inbox.state.reliable.map (·.message)).countP
      ControlMsg.isPanEnd

end Trace

/-- What is said of the touch messages of a stream, said of the
stream. -/
private theorem TouchAllowed.of_filter {l : List ControlMsg}
    (h : EveryAt TouchAllowed (l.filter ControlMsg.isTouch)) :
    EveryAt TouchAllowed l := by
  intro pre m post hl
  have hsplit : l.filter ControlMsg.isTouch
      = pre.filter ControlMsg.isTouch
        ++ (m :: post).filter ControlMsg.isTouch := by
    rw [hl, List.filter_append]
  refine ⟨fun hm => ?_, fun hm => ?_⟩
  all_goals
    have htouch : m.isTouch = true := by
      cases m <;> first | rfl | cases hm | skip
      all_goals simp [ControlMsg.isTouch, hm]
    rw [List.filter_cons_of_pos htouch] at hsplit
    have hallowed := h _ _ _ hsplit
    unfold TouchAllowed at hallowed
    rw [touchPhase_filter] at hallowed
  · exact hallowed.1 hm
  · exact hallowed.2 hm

/-- In every run in which no two waiting scales fold to zero, the touch
stream is well formed. -/
theorem touch_wellFormed (gates : ControlInbox) (ops : List Op)
    (h : Meets Trace.step (Trace.Heeds ScaleSurvives)
      (Trace.start gates) ops) :
    (exec Trace.step (Trace.start gates) ops).TouchWellFormed := by
  have hkept : Strokes.TouchKept
      (exec Trace.step (Trace.start gates) ops).strokes :=
    reflTransGen_invariant (fun _ _ hstep hs => hstep.touchKept hs)
      (Trace.strokes_simulate h) (.start gates)
  have hline := hkept.staged.line
  rw [Strokes.touchLine, List.filter_append] at hline
  have hdelivered := TouchAllowed.of_filter hline.left
  constructor
  · exact fun pre m post hl hm =>
      openSince_of_active ((hdelivered pre m post hl).1 hm)
  · exact fun pre m post hl hm =>
      openSince_of_open ((hdelivered pre m post hl).2 hm)
  · intro part pre post m hm hsplit
    obtain ⟨gone, queued, last, hexplained⟩ :=
      (@TouchPart.kept_run part True _
        (fun _ _ hg => ⟨hg, fun _ => trivial⟩) _ _ h).explained
    refine hexplained.cut_at_marker ?_ hsplit
    cases m <;> first
      | (cases hm; done)
      | (cases part <;> rfl)
      | skip
    case touchScale v =>
      have hv : v = 0 := by simpa [ControlMsg.isTouchEnd] using hm
      subst hv
      cases part <;> rfl
  · exact hkept.staged.scaleMarkers
  · exact hkept.staged.panMarkers

/-- A pinch with two scales, a pan and both ends, drained in two
batches. -/
theorem touch_wellFormed_pinch :
    (exec Trace.step (Trace.start {})
      [.enqueue (.touchPanStart 0 0), .enqueue (.touchScale 1100),
        .enqueue (.touchPanUpdate 3 4), .enqueue (.touchScale 1200),
        .takeBatch 2, .enqueue (.touchScale 0),
        .enqueue (.touchPanEnd 3 4), .takeBatch 8]).TouchWellFormed :=
  touch_wellFormed {} _ (by decide)

/-- Two small scales of one pinch fold to zero while they wait. What
goes out is an end marker that nobody sent, with the stream still
active: a delta follows it, and the counter does not know it. -/
theorem touch_ended_by_fold :
    let ops : List Op :=
      [.enqueue (.touchPanStart 0 0), .enqueue (.touchScale 20),
        .enqueue (.touchScale 30), .enqueue (.keyEvent 42 true),
        .enqueue (.touchPanUpdate 3 4)]
    (exec Trace.step (Trace.start {}) ops).accepted.map (·.message)
        = [.touchPanStart 0 0, .touchScale 20, .touchScale 30,
          .keyEvent 42 true, .touchPanUpdate 3 4]
      ∧ (exec Trace.step (Trace.start {}) (ops ++ [.takeBatch 8])
          ).delivered.map (·.message)
        = [.touchPanStart 0 0, .touchScale 0, .keyEvent 42 true,
          .touchPanUpdate 3 4]
      ∧ ¬ (exec Trace.step (Trace.start {}) ops).TouchWellFormed
      ∧ ¬ (exec Trace.step (Trace.start {})
          (ops ++ [.takeBatch 8])).TouchWellFormed := by
  refine ⟨by decide, by decide, fun h => ?_, fun h => ?_⟩
  · exact absurd h.scaleMarkers (by decide)
  · obtain ⟨before, start, after, hsplit, hstart, hafter⟩ :=
      h.deltas [.touchPanStart 0 0, .touchScale 0, .keyEvent 42 true]
        (.touchPanUpdate 3 4) [] (by decide) rfl
    cases before with
    | nil =>
      obtain ⟨-, rfl⟩ := List.cons.inj hsplit
      exact absurd (hafter (.touchScale 0) (by simp)) (by decide)
    | cons first before =>
      -- no message behind the first is a start
      have hmem : start ∈ [ControlMsg.touchScale 0,
          .keyEvent 42 true] := by
        rw [(List.cons.inj hsplit).2]
        simp
      rcases List.mem_cons.mp hmem with rfl | hmem
      · cases hstart
      · rw [List.mem_singleton.mp hmem] at hstart
        cases hstart

end RemoteDesk.Inbox
