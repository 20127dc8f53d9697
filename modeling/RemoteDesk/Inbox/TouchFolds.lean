/-
The touch deltas as two folding streams.

# The two streams

A touch stream carries scales and pans. Either kind, with the markers
of the touch stream, is a `Folding` of its own (`TouchPart.stream`): the
slot of the inbox is the slot of both, the deque is the queue of both,
and each rule of `Strokes` is at most two steps of either
(`Strokes.Step.folds`).

# A scale that folds to nothing

`combine_scale_delta` rounds toward zero. Two waiting scales whose
product is below one thousand fold to a scale of zero, which is the
message that ends a touch stream. `ScaleSurvives` is the condition that
this does not happen, and every statement here is under it: a waiting
scale is then positive (`Pointers.Scaled`).
-/
import RemoteDesk.Inbox.Strokes
import RemoteDesk.Lib.Folding

namespace RemoteDesk.Inbox

open Lib

-- =================================== guard

/-- The message does not fold the waiting scale to zero. -/
def ScaleSurvives (p : Pointers) (m : ControlMsg) : Prop :=
  match m with
  | .touchScale scale => 0 < scale →
      ∀ previous ∈ p.scale, combineScaleDelta previous scale ≠ 0
  | _ => True

instance (p : Pointers) (m : ControlMsg) :
    Decidable (ScaleSurvives p m) := by
  unfold ScaleSurvives
  cases m <;> infer_instance

/-- A waiting scale is a delta, not an end marker. -/
def Pointers.Scaled (p : Pointers) : Prop :=
  ∀ scale, p.scale = some scale → 0 < scale

/-- The fold of positive scales is not negative. -/
theorem combineScaleDelta_nonneg {previous next : Int}
    (hp : 0 < previous) (hn : 0 < next) :
    0 ≤ combineScaleDelta previous next := by
  have hproduct : 0 ≤ previous * next := by positivity
  have hquotient : 0 ≤ Int.tdiv (previous * next) touchScaleBase :=
    Int.tdiv_nonneg hproduct (by decide)
  unfold combineScaleDelta i32Min i32Max
  omega

-- =================================== parts

/-- The two kinds of touch delta. -/
inductive TouchPart
  | scale
  | pan
deriving DecidableEq, Repr

variable {m : ControlMsg} {p : Pointers} {guard : Pointers → ControlMsg → Prop}

namespace TouchPart

/-- The messages of a part's stream: its deltas and the touch markers.
A negative scale is sent as it comes, in order with the other scales. -/
def member : TouchPart → ControlMsg → Bool
  | .scale, .touchScale _ => true
  | .pan, .touchScale v => decide (v = 0)
  | .pan, .touchPanUpdate .. => true
  | _, .touchPanStart .. | _, .touchPanEnd .. => true
  | _, _ => false

def isUpdate : TouchPart → ControlMsg → Bool
  | .scale, .touchScale v => decide (0 < v)
  | .pan, .touchPanUpdate .. => true
  | _, _ => false

/-- What a waiting delta and one that joins it become. -/
def fold : ControlMsg → ControlMsg → ControlMsg
  | .touchScale previous, .touchScale v =>
    .touchScale (combineScaleDelta previous v)
  | .touchPanUpdate previousX previousY, .touchPanUpdate x y =>
    .touchPanUpdate (i32SaturatingAdd previousX x)
      (i32SaturatingAdd previousY y)
  | m, _ => m

def rules (part : TouchPart) : FoldRules ControlMsg where
  isUpdate := part.isUpdate
  fold := fold
  restarts := ControlMsg.isTouchStart
  marks m hm := by
    cases m <;> cases part <;> first | rfl | cases hm

/-- The delta of the part that waits. -/
def slot (part : TouchPart) (p : Pointers) : Option ControlMsg :=
  match part with
  | .scale => p.scale.map .touchScale
  | .pan => p.pan.map fun pan => .touchPanUpdate pan.1 pan.2

/-- The part's stream in a run. -/
def stream (part : TouchPart) (s : Strokes) : Folding ControlMsg :=
  { accepted := s.accepted.filter part.member
    delivered := s.delivered.filter part.member
    queue :=
      (s.pointers.queues.reliable.map (·.message)).filter part.member
    slot := part.slot s.pointers }

variable {part : TouchPart}

theorem member_of_isUpdate
    (h : part.isUpdate m = true) : part.member m = true := by
  cases part <;> cases m <;> first | rfl | cases h

/-- What a display switch takes of the part is its deltas. -/
theorem isStaleUpdate_of_member
    (h : part.member m = true) : m.isStaleUpdate = part.isUpdate m := by
  cases part <;> cases m <;> first | rfl | cases h | skip
  case pan.touchScale v =>
    have hzero : v = 0 := by simpa [member] using h
    subst hzero
    rfl

theorem member_quiet (h : m.isQuiet = true) : part.member m = false := by
  cases part <;> cases m <;> first | rfl | cases h

/-- The slot's entries, read as the part's stream. -/
theorem filter_touchEntries {p : Pointers} (hp : p.Scaled) :
    (p.queues.touchEntries.map (·.message)).filter part.member
      = (part.slot p).toList := by
  unfold slot Pointers.scale Pointers.pan Queues.touchEntries
  cases hq : p.queues.touchUpdate with
  | none => cases part <;> rfl
  | some pending =>
    obtain ⟨n, scale, pan⟩ := pending
    have hscale : ∀ v, scale = some v → v ≠ 0 := by
      intro v hv
      have := hp v (by simp [Pointers.scale, hq, hv])
      omega
    cases scale with
    | none =>
      cases pan <;> cases part <;>
        simp [PendingTouchUpdate.entries, member]
    | some v =>
      have hv := hscale v rfl
      cases pan <;> cases part <;>
        first | rfl | simp [PendingTouchUpdate.entries, member, hv]

/-- A flush shows the part its slot. -/
theorem filter_flushed (hp : p.Scaled) :
    (p.queues.flushed.map (·.message)).filter part.member
      = (part.slot p).toList := by
  rw [← filter_touchEntries hp]
  unfold Queues.flushed Queues.touchEntries
  have hwheel : ∀ w : PendingMouseWheel2D,
      part.member w.entry.message = false := by
    intro w
    cases part <;> rfl
  cases p.queues.touchUpdate <;> cases p.queues.mouseWheel2D
  case some.some touch wheel =>
    dsimp only
    split <;> simp [hwheel]
  all_goals simp [hwheel]

end TouchPart

-- ================================== scaled

namespace Pointers

variable {p' : Pointers} {n : Nat}

/-- What is enqueued keeps a waiting scale positive. -/
theorem Scaled.accepts (h : p.Scaled) (hg : ScaleSurvives p m)
    (hm : p.Accepts n m p') : p'.Scaled := by
  cases hm with
  | flag | move | wheel => exact h
  | switch | start | scaleEnd | panEnd | reliable =>
    intro v hv
    cases hv
  | pan x y => exact h
  | scale v hpos =>
    intro folded hfolded
    rw [scale_foldScale] at hfolded
    cases hq : p.scale with
    | none =>
      have hone : v = folded := by simpa [hq] using hfolded
      omega
    | some previous =>
      have hone : combineScaleDelta previous v = folded := by
        simpa [hq] using hfolded
      have hne := hg hpos previous hq
      have hnonneg := combineScaleDelta_nonneg (h previous hq) hpos
      omega

theorem Scaled.pops (h : p.Scaled) {out : List Delivery}
    (hp : p.Pops out p') : p'.Scaled := by
  cases hp with
  | reliable | move | wheel | switch => exact h
  | touch pending out rest hq strict split hrest =>
    intro v hv
    obtain ⟨left, hleft, hscale⟩ := Option.bind_eq_some_iff.mp hv
    have hleft' : rest = some left := hleft
    -- what is left of the slot was in it
    have hmem : (⟨left.sequence, .touchScale v⟩ : SequencedControl)
        ∈ pending.entries := by
      rw [← split, hleft']
      refine List.mem_append_right _ (List.mem_append_left _ ?_)
      simp [hscale]
    have hv' : pending.scale = some v := by
      rcases List.mem_append.mp hmem with hmem | hmem
      · obtain ⟨v', hv', heq⟩ := List.mem_map.mp hmem
        have hsame : v' = v := by simpa using congrArg (·.message) heq
        exact hsame ▸ Option.mem_toList.mp hv'
      · obtain ⟨_, -, heq⟩ := List.mem_map.mp hmem
        simpa using congrArg (·.message) heq
    exact h v (by simp [Pointers.scale, hq, hv'])

end Pointers

theorem Strokes.Step.scaled (hguard : ∀ p m, guard p m → ScaleSurvives p m)
    {s s' : Strokes} (h : Strokes.Step guard s s') (hs : s.pointers.Scaled) :
    s'.pointers.Scaled := by
  cases h with
  | accept m p' hg hm => exact hs.accepts (hguard _ _ hg) hm
  | skip => exact hs
  | pop out p' hp => exact hs.pops hp
  | flag => exact hs

-- ============================== simulation

namespace TouchPart

variable {part : TouchPart} {purges : Prop} {s : Strokes}

@[simp] theorem slot_none
    (hp : p.queues.touchUpdate = none) : part.slot p = none := by
  cases part <;> simp [slot, Pointers.scale, Pointers.pan, hp]

/-- The deque behind a flush. -/
private theorem queue_flush (hp : p.Scaled) :
    ((p.flush.queues.reliable).map (·.message)).filter part.member
      = (p.queues.reliable.map (·.message)).filter part.member
        ++ (part.slot p).toList := by
  show ((p.queues.reliable ++ p.queues.flushed).map _).filter _ = _
  rw [List.map_append, List.filter_append, filter_flushed hp]

variable {p' : Pointers}

/-- A flush, then `m` if it is a marker of the part. -/
private theorem folds_reliable (hp : s.pointers.Scaled)
    (hm : part.isUpdate m = false) {next : Nat} (hreliable : p'.queues.reliable
      = s.pointers.flush.queues.reliable ++ [⟨next, m⟩])
    (hslot : part.slot p' = none) :
    Relation.ReflTransGen (Folding.Step part.rules purges)
      (part.stream s)
      (part.stream
        { s with pointers := p', accepted := s.accepted ++ [m] }) := by
  have hqueue : (p'.queues.reliable.map (·.message)).filter part.member
      = (part.stream s).queue ++ (part.slot s.pointers).toList
        ++ [m].filter part.member := by
    rw [hreliable, List.map_append, List.filter_append, queue_flush hp]
    rfl
  have hstream : part.stream
      { s with pointers := p', accepted := s.accepted ++ [m] }
      = { accepted := (part.stream s).accepted ++ [m].filter part.member
          delivered := (part.stream s).delivered
          queue := (part.stream s).queue ++ (part.slot s.pointers).toList
            ++ [m].filter part.member
          slot := none } := by
    simp only [stream, List.filter_append, hslot, hqueue]
  have hflush : Relation.ReflTransGen (Folding.Step part.rules purges)
      (part.stream s)
      { part.stream s with
        queue := (part.stream s).queue
          ++ (part.slot s.pointers).toList
        slot := none } := by
    cases hs : part.slot s.pointers with
    | none =>
      have hnone : (part.stream s).slot = none := hs
      rw [Option.toList_none, List.append_nil, ← hnone]
    | some v => exact .single (.flush _ v hs)
  rw [hstream]
  cases hmember : part.member m with
  | false => simpa [hmember] using hflush
  | true =>
    have hmark := hflush.tail (.marks _ m hm rfl)
    simpa [hmember] using hmark

/-- An accepted message that the part does not see. -/
private theorem folds_unseen (hmember : part.member m = false)
    (hreliable : p'.queues.reliable = s.pointers.queues.reliable)
    (hslot : part.slot p' = part.slot s.pointers) :
    Relation.ReflTransGen (Folding.Step part.rules purges)
      (part.stream s)
      (part.stream
        { s with pointers := p', accepted := s.accepted ++ [m] }) := by
  have hstream : part.stream
      { s with pointers := p', accepted := s.accepted ++ [m] }
      = part.stream s := by
    simp [stream, hmember, hreliable, hslot]
  rw [hstream]

/-- An accepted delta of the part. -/
private theorem folds_update (hm : part.isUpdate m = true)
    (hreliable : p'.queues.reliable = s.pointers.queues.reliable)
    (hslot : part.slot p' = some
      ((part.slot s.pointers).elim m fun v => fold v m))
    (hfold : ∀ v, part.slot s.pointers = some v →
      part.isUpdate (fold v m) = true) :
    Relation.ReflTransGen (Folding.Step part.rules purges)
      (part.stream s)
      (part.stream
        { s with pointers := p', accepted := s.accepted ++ [m] }) := by
  have hstream : part.stream
      { s with pointers := p', accepted := s.accepted ++ [m] }
      = { part.stream s with
          accepted := (part.stream s).accepted ++ [m]
          slot := some
            ((part.slot s.pointers).elim m fun v => fold v m) } := by
    simp [stream, member_of_isUpdate hm, hreliable, hslot]
  rw [hstream]
  cases hs : part.slot s.pointers with
  | none => exact .single (.opens _ m hm hs)
  | some v => exact .single (.joins _ m v hm hs (hfold v hs))

/-- An accepted message is at most two steps of the part's stream. -/
theorem folds_accepts (hs : s.pointers.Scaled) (hg : ScaleSurvives s.pointers m)
    (hpurge : m.isSwitch = true → purges)
    (hm : s.pointers.Accepts s.next m p') :
    Relation.ReflTransGen (Folding.Step part.rules purges)
      (part.stream s)
      (part.stream
        { s with pointers := p', accepted := s.accepted ++ [m] }) := by
  cases hm with
  | flag m hquiet => exact folds_unseen (member_quiet hquiet) rfl rfl
  | move x y =>
    exact folds_unseen (member_quiet rfl) rfl (by cases part <;> rfl)
  | wheel x y =>
    refine folds_unseen ?_ rfl ?_ <;> cases part <;> rfl
  | switch display generation =>
    refine .single ?_
    convert Folding.Step.purge (part.stream s) (hpurge rfl) using 1
    have hqueue : ((s.pointers.queues.reliable.filter
          (!·.message.isStaleUpdate)).map (·.message)).filter part.member
        = (part.stream s).queue.filter
          fun m => !part.rules.isUpdate m := by
      show _ = ((s.pointers.queues.reliable.map _).filter _).filter _
      rw [List.filter_filter, List.filter_map, List.filter_map,
        List.filter_filter]
      refine congrArg _ (List.filter_congr fun e _ => ?_)
      cases hmember : part.member e.message with
      | false => simp [hmember]
      | true =>
        have hstale := isStaleUpdate_of_member hmember
        simp [hmember, hstale, rules]
    have hmember : part.member (.displaySwitch display generation)
        = false := member_quiet rfl
    simp [stream, hmember, hqueue, slot_none]
  | start x y =>
    have hmember : part.member (.touchPanStart x y) = true := by
      cases part <;> rfl
    refine .single ?_
    convert Folding.Step.restarts (part.stream s) (.touchPanStart x y)
      (r := part.rules) rfl using 1
    simp [stream, hmember, Pointers.append, slot_none]
  | scale v hpos =>
    cases part with
    | pan =>
      have hne : v ≠ 0 := by omega
      exact folds_unseen (decide_eq_false hne) rfl rfl
    | scale =>
      refine folds_update (decide_eq_true hpos) rfl ?_ ?_
      · cases hq : s.pointers.scale <;> simp [slot, hq, fold]
      · intro m hslot
        obtain ⟨previous, hq, rfl⟩ := Option.map_eq_some_iff.mp hslot
        have hne := hg hpos previous hq
        have hnonneg := combineScaleDelta_nonneg (hs previous hq) hpos
        exact decide_eq_true (by omega)
  | pan x y =>
    cases part with
    | scale => exact folds_unseen rfl rfl rfl
    | pan =>
      refine folds_update rfl rfl ?_ ?_
      · cases hq : s.pointers.pan <;> simp [slot, hq, fold]
      · intro m hslot
        obtain ⟨previous, hq, rfl⟩ := Option.map_eq_some_iff.mp hslot
        rfl
  | scaleEnd =>
    refine folds_reliable hs ?_ rfl (slot_none rfl)
    cases part <;> rfl
  | panEnd x y =>
    refine folds_reliable hs ?_ rfl (slot_none rfl)
    cases part <;> rfl
  | reliable m hr hstart hend =>
    refine folds_reliable hs ?_ rfl (slot_none rfl)
    cases m <;> cases part <;> first | rfl | cases hr | skip
    case touchScale.scale v =>
      have hle : v ≤ 0 := by simpa [ControlMsg.isReliable] using hr
      exact decide_eq_false (by omega)

/-- A turn of the drain loop that the part does not see. -/
private theorem folds_pop_unseen {out : List ControlMsg}
    (hout : out.filter part.member = [])
    (hreliable : (p'.queues.reliable.map (·.message)).filter part.member
      = (part.stream s).queue) (hslot : part.slot p' = part.slot s.pointers) :
    Relation.ReflTransGen (Folding.Step part.rules purges)
      (part.stream s)
      (part.stream
        { s with pointers := p', delivered := s.delivered ++ out }) := by
  have hstream : part.stream
      { s with pointers := p', delivered := s.delivered ++ out }
      = part.stream s := by
    simp only [stream, List.filter_append, hout, List.append_nil,
      hreliable, hslot]
  rw [hstream]

/-- A turn of the drain loop is at most one step of the part's
stream. -/
theorem folds_pops (ho : s.pointers.Ordered s.next) (hs : s.pointers.Scaled)
    {out : List Delivery} (hp : s.pointers.Pops out p') :
    Relation.ReflTransGen (Folding.Step part.rules purges)
      (part.stream s)
      (part.stream
        { s with
          pointers := p'
          delivered := s.delivered ++ out.map (·.message) }) := by
  have hquiet : ∀ m : ControlMsg, m.isMove = true ∨ m.isSwitch = true →
      part.member m = false := by
    intro m hm
    refine member_quiet ?_
    cases m <;> first | rfl | simp [ControlMsg.isMove,
      ControlMsg.isSwitch] at hm
  have hscaled := hs.pops hp
  cases hp with
  | reliable e rest hq =>
    cases hmember : part.member e.message with
    | false =>
      refine folds_pop_unseen (by simp [hmember]) ?_ rfl
      simp [stream, hq, hmember, Pointers.sent]
    | true =>
      have hqueue : (part.stream s).queue = e.message
          :: (rest.map (·.message)).filter part.member := by
        simp [stream, hq, hmember]
      refine .single ?_
      convert Folding.Step.pop (part.stream s) e.message _ hqueue
        using 1
      simp only [stream, List.filter_append, List.map_cons,
        List.map_nil, SequencedControl.delivery_message]
      rw [List.filter_cons_of_pos hmember]
      rfl
  | move e hq =>
    have hmember := hquiet e.message (.inl (ho.move_kind e hq))
    exact folds_pop_unseen (by simp [hmember]) rfl rfl
  | switch e hq =>
    have hmember := hquiet e.message (.inr (ho.switch_kind e hq))
    exact folds_pop_unseen (by simp [hmember]) rfl rfl
  | wheel pending hq strict =>
    have hmember : part.member pending.entry.message = false := by
      cases part <;> rfl
    exact folds_pop_unseen (by simp [hmember]) rfl rfl
  | touch pending out rest hq strict split hrest =>
    have hempty := ho.touch_first hq strict
    have hqueue : (part.stream s).queue = [] := by
      simp [stream, hempty]
    -- what went out and what stays are what was in the slot
    have hbefore := @filter_touchEntries part _ hs
    have hafter := @filter_touchEntries part _ hscaled
    rw [Queues.touchEntries, hq, Option.elim_some, ← split,
      List.map_append, List.filter_append] at hbefore
    rw [Queues.touchEntries] at hafter
    dsimp only at hafter
    rw [hafter] at hbefore
    have hmessages : (out.map SequencedControl.delivery).map (·.message)
        = out.map (·.message) := by simp
    rw [hmessages]
    cases hleft : part.slot { s.pointers with
        queues := { s.pointers.queues with touchUpdate := rest } } with
    | some w =>
      rw [hleft] at hbefore
      cases hslot : part.slot s.pointers with
      | none => simp [hslot] at hbefore
      | some v =>
        rw [hslot] at hbefore
        have hbefore' : (out.map (·.message)).filter part.member
            ++ [w] = [] ++ [v] := hbefore
        obtain ⟨hout, hsame⟩ := List.append_inj' hbefore' rfl
        refine folds_pop_unseen hout rfl ?_
        rw [hleft, hslot]
        simpa using hsame
    | none =>
      rw [hleft, Option.toList_none, List.append_nil] at hbefore
      cases hslot : part.slot s.pointers with
      | none =>
        rw [hslot] at hbefore
        exact folds_pop_unseen hbefore rfl (by rw [hleft, hslot])
      | some v =>
        refine .single ?_
        convert Folding.Step.popSlot (part.stream s) v hqueue hslot
          using 1
        simp only [stream, List.filter_append, hbefore, hslot, hleft,
          Option.toList_some]

/-- Every rule of a run is a run of the part's stream. -/
theorem folds (hguard : ∀ p m, guard p m → ScaleSurvives p m
      ∧ (m.isSwitch = true → purges)) {s' : Strokes}
    (ho : s.pointers.Ordered s.next) (hs : s.pointers.Scaled)
    (h : Strokes.Step guard s s') :
    Relation.ReflTransGen (Folding.Step part.rules purges)
      (part.stream s) (part.stream s') := by
  cases h with
  | accept m p' hg hm =>
    exact folds_accepts hs (hguard _ _ hg).1 (hguard _ _ hg).2 hm
  | skip => exact .refl
  | pop out p' hp => exact folds_pops ho hs hp
  | flag m hm =>
    exact folds_pop_unseen (by simp [member_quiet hm]) rfl rfl

/-- What a run keeps of a part's stream. -/
structure Kept (part : TouchPart) (purges : Prop) (s : Strokes) :
    Prop where
  ordered : s.pointers.Ordered s.next
  scaled : s.pointers.Scaled
  explained : ∃ gone queued last,
    Explained part.rules purges (part.stream s) gone queued last

theorem Kept.start (gates : ControlInbox) :
    Kept part purges (Trace.start gates).strokes where
  ordered := Trace.ordered_start gates
  scaled _ hv := by cases hv
  explained := ⟨[], [], none, by cases part <;> exact .init⟩

theorem Kept.step (hguard : ∀ p m, guard p m → ScaleSurvives p m
      ∧ (m.isSwitch = true → purges)) {s s' : Strokes}
    (h : Strokes.Step guard s s') (hs : Kept part purges s) :
    Kept part purges s' where
  ordered := h.ordered hs.ordered
  scaled := h.scaled (fun p m hg => (hguard p m hg).1) hs.scaled
  explained := Folding.explained_run
    (folds hguard hs.ordered hs.scaled h) hs.explained

/-- In every run the part's stream has an explanation. -/
theorem kept_run {guard : Pointers → ControlMsg → Prop}
    (hguard : ∀ p m, guard p m → ScaleSurvives p m
      ∧ (m.isSwitch = true → purges)) {gates : ControlInbox}
    {ops : List Op}
    (h : Meets Trace.step (Trace.Heeds guard) (Trace.start gates) ops) :
    Kept part purges
      (exec Trace.step (Trace.start gates) ops).strokes :=
  reflTransGen_invariant (fun _ _ hstep hs => hs.step hguard hstep)
    (Trace.strokes_simulate h) (Kept.start gates)

end TouchPart

end RemoteDesk.Inbox
