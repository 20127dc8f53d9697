/-
The gate of a display switch (rustdesk/rustdesk_display_switch_gate.h).

A selection of another display stays pending until that display was
acknowledged and has sent a keyframe. Displays are `Int`, negative where
there is none; generations wrap at 64 bits. The owner's lock makes every call
one step, so a run is a list of calls.

`Awaiting` reads the pending selection off the calls that came before: its
`begin` is the last one, and an acknowledgement that counts came after it.
-/
import RemoteDesk.Lib.Runs

namespace RemoteDesk.Display

open Lib

def uint64Max : Nat := 2 ^ 64 - 1

structure RustDeskDisplaySwitchGateDecision where
  acceptFrame : Bool := false
  publishDisplay : Bool := false
  display : Int := -1
deriving DecidableEq, Repr

structure RustDeskDisplaySwitchGate where
  generation : Nat := 0
  readyGeneration : Nat := 0
  pendingDisplay : Int := -1
  confirmedDisplay : Int := -1
  acknowledgementSeen : Bool := false
deriving DecidableEq, Repr

namespace RustDeskDisplaySwitchGate

variable (gate : RustDeskDisplaySwitchGate)

def reset : RustDeskDisplaySwitchGate := {}

def begin (display : Int) : RustDeskDisplaySwitchGate × Nat :=
  let generation :=
    if gate.generation = uint64Max then 1 else gate.generation + 1
  ({ gate with
      generation, pendingDisplay := display, acknowledgementSeen := false },
    generation)

def reject (generation : Nat) : RustDeskDisplaySwitchGate :=
  if generation ≠ gate.generation ∨ gate.pendingDisplay < 0 then gate
  else { gate with pendingDisplay := -1, acknowledgementSeen := false }

def observeDisplay (display : Int) :
    RustDeskDisplaySwitchGate × RustDeskDisplaySwitchGateDecision :=
  if display < 0 then (gate, {})
  else if gate.pendingDisplay ≥ 0 then
    (if display = gate.pendingDisplay then
        { gate with acknowledgementSeen := true }
      else gate, {})
  else ({ gate with confirmedDisplay := display },
    { publishDisplay := true, display })

def observeFrame (display : Int) (keyFrame : Bool) :
    RustDeskDisplaySwitchGate × RustDeskDisplaySwitchGateDecision :=
  if display < 0 then (gate, {})
  else if gate.pendingDisplay ≥ 0 then
    if display ≠ gate.pendingDisplay ∨ gate.acknowledgementSeen = false
        ∨ keyFrame = false then (gate, {})
    else
      ({ gate with
          confirmedDisplay := gate.pendingDisplay
          pendingDisplay := -1
          acknowledgementSeen := false
          readyGeneration := gate.generation },
        { acceptFrame := true, publishDisplay := true
          display := gate.pendingDisplay })
  else if gate.confirmedDisplay < 0 then
    ({ gate with confirmedDisplay := display },
      { acceptFrame := true, publishDisplay := true, display })
  else (gate, { acceptFrame := display = gate.confirmedDisplay })

/-- A selection is pending, and input blocked. -/
def inputBlocked : Bool := gate.pendingDisplay ≥ 0

end RustDeskDisplaySwitchGate

inductive GateCall where
  | begin (display : Int)
  | reject (generation : Nat)
  | observeDisplay (display : Int)
  | observeFrame (display : Int) (keyFrame : Bool)
  | reset
deriving DecidableEq, Repr

def GateCall.begins : GateCall → Bool
  | .begin _ => true
  | _ => false

namespace RustDeskDisplaySwitchGate

/-- A call: the gate after it, and what it decides. -/
def call (gate : RustDeskDisplaySwitchGate) : GateCall →
    RustDeskDisplaySwitchGate × RustDeskDisplaySwitchGateDecision
  | .begin display => ((gate.begin display).1, {})
  | .reject generation => (gate.reject generation, {})
  | .observeDisplay display => gate.observeDisplay display
  | .observeFrame display keyFrame => gate.observeFrame display keyFrame
  | .reset => (reset, {})

end RustDeskDisplaySwitchGate

/-- A gate, and the display that was published last. -/
structure GateRun where
  gate : RustDeskDisplaySwitchGate := {}
  published : Option Int := none
deriving DecidableEq, Repr

def GateRun.step (run : GateRun) (call : GateCall) : GateRun where
  gate := (run.gate.call call).1
  published :=
    if (run.gate.call call).2.publishDisplay then
      some (run.gate.call call).2.display
    else run.published

/-- The run that calls lead to. -/
def runOf (calls : List GateCall) : GateRun := exec GateRun.step {} calls

-- ============================== selections

/-- The last selection is of this display; `seen` says that it was
acknowledged since. -/
def Awaiting (calls : List GateCall) (display : Int) (seen : Bool) : Prop :=
  ∃ early late, calls = early ++ .begin display :: late
    ∧ (∀ call ∈ late, call.begins = false)
    ∧ (seen = true → .observeDisplay display ∈ late)

variable {display : Int} {call : GateCall} {calls : List GateCall}
variable {run : GateRun}

theorem Awaiting.snoc {seen : Bool} (h : Awaiting calls display seen)
    (hcall : call.begins = false) :
    Awaiting (calls ++ [call]) display seen := by
  obtain ⟨early, late, rfl, hlate, hseen⟩ := h
  refine ⟨early, late ++ [call], by simp, fun next hnext => ?_, fun h => ?_⟩
  · rcases List.mem_append.mp hnext with hnext | hnext
    · exact hlate next hnext
    · rw [List.mem_singleton.mp hnext]
      exact hcall
  · exact List.mem_append_left _ (hseen h)

/-- The display of the selection is acknowledged now. -/
theorem Awaiting.acknowledge {seen : Bool} (h : Awaiting calls display seen) :
    Awaiting (calls ++ [.observeDisplay display]) display true := by
  obtain ⟨early, late, rfl, hlate, -⟩ := h
  refine ⟨early, late ++ [.observeDisplay display], by simp,
    fun next hnext => ?_, fun _ => by simp⟩
  rcases List.mem_append.mp hnext with hnext | hnext
  · exact hlate next hnext
  · rw [List.mem_singleton.mp hnext]
    rfl

theorem awaiting_begin (calls : List GateCall) (display : Int) :
    Awaiting (calls ++ [.begin display]) display false := by
  refine ⟨calls, [], rfl, fun call hcall => ?_, fun h => ?_⟩
  · exact absurd hcall List.not_mem_nil
  · cases h

-- =============================== invariant

/-- What calls leave behind them. -/
structure Kept (calls : List GateCall) (run : GateRun) : Prop where
  awaiting : run.gate.pendingDisplay ≥ 0 →
    Awaiting calls run.gate.pendingDisplay run.gate.acknowledgementSeen
  published : run.gate.confirmedDisplay ≥ 0 →
    run.published = some run.gate.confirmedDisplay
  counted : run.gate.generation ≤ calls.countP GateCall.begins
  ready : run.gate.readyGeneration ≤ run.gate.generation

/-- The gate goes on as it was, with a call that selects nothing. -/
theorem Kept.same (h : Kept calls run) (hcall : call.begins = false) :
    Kept (calls ++ [call]) run where
  awaiting hpending := (h.awaiting hpending).snoc hcall
  published := h.published
  counted := by
    rw [List.countP_append]
    exact h.counted.trans (Nat.le_add_right _ _)
  ready := h.ready

/-- Nothing is pending, and a display may be published. -/
theorem Kept.idle {next : GateRun} (h : Kept calls run)
    (hpending : next.gate.pendingDisplay < 0)
    (hpublished : next.gate.confirmedDisplay ≥ 0 →
      next.published = some next.gate.confirmedDisplay)
    (hgeneration : next.gate.generation ≤ run.gate.generation)
    (hready : next.gate.readyGeneration ≤ next.gate.generation) :
    Kept (calls ++ [call]) next where
  awaiting hno := by omega
  published := hpublished
  counted := by
    rw [List.countP_append]
    have := h.counted
    omega
  ready := hready

/-- No display. -/
theorem minusOne_neg : (-1 : Int) < 0 := by decide

theorem Kept.step (h : Kept calls run) (call : GateCall)
    (hfew : (calls ++ [call]).countP GateCall.begins < 2 ^ 64) :
    Kept (calls ++ [call]) (run.step call) := by
  cases call with
  | begin display =>
    rw [List.countP_append] at hfew
    have hone : [GateCall.begin display].countP GateCall.begins = 1 := rfl
    have hcounted := h.counted
    have hready := h.ready
    have hnext : (run.step (.begin display)).gate.generation
        = run.gate.generation + 1 := by
      refine if_neg ?_
      show run.gate.generation ≠ 2 ^ 64 - 1
      omega
    refine ⟨fun _ => awaiting_begin calls display, h.published, ?_, ?_⟩
    · rw [hnext, List.countP_append]
      omega
    · rw [hnext]
      exact hready.trans (Nat.le_succ _)
  | reject generation =>
    show Kept _ ⟨run.gate.reject generation, run.published⟩
    rw [RustDeskDisplaySwitchGate.reject]
    split
    · exact h.same rfl
    · exact h.idle minusOne_neg h.published le_rfl h.ready
  | observeDisplay display =>
    rw [GateRun.step]
    show Kept _ ⟨(run.gate.observeDisplay display).1,
      if (run.gate.observeDisplay display).2.publishDisplay then
        some (run.gate.observeDisplay display).2.display
      else run.published⟩
    rw [RustDeskDisplaySwitchGate.observeDisplay]
    split
    · exact h.same rfl
    · split
      · next hpending =>
          by_cases hdisplay : display = run.gate.pendingDisplay
          · rw [if_pos hdisplay]
            refine ⟨fun _ => ?_, h.published, ?_, h.ready⟩
            · rw [hdisplay]
              exact (h.awaiting hpending).acknowledge
            · exact (h.same rfl).counted
          · rw [if_neg hdisplay]
            exact h.same rfl
      · next hpending =>
          exact h.idle (not_le.mp hpending) (fun _ => rfl) le_rfl h.ready
  | observeFrame display keyFrame =>
    show Kept _ ⟨(run.gate.observeFrame display keyFrame).1,
      if (run.gate.observeFrame display keyFrame).2.publishDisplay then
        some (run.gate.observeFrame display keyFrame).2.display
      else run.published⟩
    rw [RustDeskDisplaySwitchGate.observeFrame]
    split
    · exact h.same rfl
    · split
      · split
        · exact h.same rfl
        · exact h.idle minusOne_neg (fun _ => rfl) le_rfl le_rfl
      · next hpending =>
          split
          · exact h.idle (not_le.mp hpending) (fun _ => rfl) le_rfl h.ready
          · exact h.same rfl
  | reset =>
    refine h.idle minusOne_neg (fun hno => ?_) (Nat.zero_le _) le_rfl
    exact absurd minusOne_neg (not_lt.mpr hno)

theorem runOf_snoc (calls : List GateCall) (call : GateCall) :
    runOf (calls ++ [call]) = (runOf calls).step call := by
  rw [runOf, exec_append]
  rfl

theorem kept_runOf (calls : List GateCall)
    (hfew : calls.countP GateCall.begins < 2 ^ 64) :
    Kept calls (runOf calls) := by
  induction calls using List.reverseRecOn with
  | nil =>
    refine ⟨fun hno => ?_, fun hno => ?_, le_rfl, le_rfl⟩
    · exact absurd hno (by decide)
    · exact absurd hno (by decide)
  | append_singleton calls call ih =>
    rw [runOf_snoc]
    refine (ih ?_).step call hfew
    rw [List.countP_append] at hfew
    omega

-- ================================= results

/-- While a selection is pending: only its own keyframe is accepted, and
that ends it; other frames, and what is acknowledged, do not. -/
theorem pending_call (hpending : run.gate.pendingDisplay ≥ 0)
    (call : GateCall) :
    ((run.gate.call call).2.acceptFrame = true →
        call = .observeFrame run.gate.pendingDisplay true
          ∧ run.gate.acknowledgementSeen = true
          ∧ (run.step call).gate.inputBlocked = false
          ∧ (run.step call).gate.readyGeneration = run.gate.generation)
      ∧ (∀ display keyFrame, call = .observeFrame display keyFrame →
        (run.gate.call call).2.acceptFrame = false →
          (run.step call).gate = run.gate)
      ∧ (∀ display, call = .observeDisplay display →
        (run.step call).gate.pendingDisplay = run.gate.pendingDisplay) := by
  refine ⟨fun haccept => ?_, fun display keyFrame hcall hrefuse => ?_,
    fun display hcall => ?_⟩
  · cases call with
    | observeFrame display keyFrame =>
      have hframe : (run.gate.observeFrame display keyFrame).2.acceptFrame
        = true := haccept
      rw [RustDeskDisplaySwitchGate.observeFrame] at hframe
      split at hframe
      · cases hframe
      · next hdisplay =>
          split at hframe
          · cases hframe
          · next hmatch =>
              have hgate : (run.step (.observeFrame display keyFrame)).gate
                  = (run.gate.observeFrame display keyFrame).1 := rfl
              rw [hgate, RustDeskDisplaySwitchGate.observeFrame,
                if_neg hdisplay, if_pos hpending, if_neg hmatch]
              simp only [not_or, not_not, Bool.not_eq_false] at hmatch
              obtain ⟨rfl, hseen, rfl⟩ := hmatch
              exact ⟨rfl, hseen, rfl, rfl⟩
    | observeDisplay display =>
      have hno : (run.gate.observeDisplay display).2.acceptFrame = true :=
        haccept
      rw [RustDeskDisplaySwitchGate.observeDisplay, if_pos hpending] at hno
      split at hno <;> cases hno
    | begin display => cases haccept
    | reject generation => cases haccept
    | reset => cases haccept
  · subst hcall
    have hframe : (run.gate.observeFrame display keyFrame).2.acceptFrame
      = false := hrefuse
    show (run.gate.observeFrame display keyFrame).1 = run.gate
    rw [RustDeskDisplaySwitchGate.observeFrame] at hframe ⊢
    split
    · rfl
    · next hdisplay =>
        rw [if_neg hdisplay] at hframe
        split
        · rfl
        · next hmatch =>
            rw [if_pos hpending, if_neg hmatch] at hframe
            cases hframe
  · subst hcall
    show (run.gate.observeDisplay display).1.pendingDisplay = _
    rw [RustDeskDisplaySwitchGate.observeDisplay, if_pos hpending]
    split
    · rfl
    · dsimp only
      split
      · rfl
      · rfl

/-- Outside of a selection an accepted frame is of the display that was
published last, with this frame where it publishes its own. -/
theorem idle_frame (h : Kept calls run) (hpending : run.gate.pendingDisplay < 0)
    {keyFrame : Bool}
    (haccept : (run.gate.observeFrame display keyFrame).2.acceptFrame = true) :
    (run.step (.observeFrame display keyFrame)).published = some display := by
  show (if (run.gate.observeFrame display keyFrame).2.publishDisplay then
      some (run.gate.observeFrame display keyFrame).2.display
    else run.published) = some display
  rw [RustDeskDisplaySwitchGate.observeFrame] at haccept ⊢
  split at haccept
  · cases haccept
  · next hdisplay =>
      rw [if_neg (not_le.mpr hpending)] at haccept
      rw [if_neg hdisplay, if_neg (not_le.mpr hpending)]
      split at haccept
      · next hfirst =>
          rw [if_pos hfirst]
          rfl
      · next hconfirmed =>
          rw [if_neg hconfirmed]
          have hsame : display = run.gate.confirmedDisplay :=
            of_decide_eq_true haccept
          show run.published = some display
          rw [hsame]
          exact h.published (not_lt.mp hconfirmed)

/-- The generation that is ready changes with a keyframe, or starts over. -/
theorem ready_changes
    (h : (run.step call).gate.readyGeneration ≠ run.gate.readyGeneration) :
    (run.gate.pendingDisplay ≥ 0
        ∧ (run.gate.call call).2.acceptFrame = true)
      ∨ call = .reset := by
  cases call with
  | begin display => exact absurd rfl h
  | reject generation =>
    refine absurd ?_ h
    show (run.gate.reject generation).readyGeneration = _
    rw [RustDeskDisplaySwitchGate.reject]
    split <;> rfl
  | observeDisplay display =>
    refine absurd ?_ h
    show (run.gate.observeDisplay display).1.readyGeneration = _
    rw [RustDeskDisplaySwitchGate.observeDisplay]
    split
    · rfl
    · split
      · dsimp only
        split <;> rfl
      · rfl
  | observeFrame display keyFrame =>
    left
    by_cases hpending : run.gate.pendingDisplay ≥ 0
    · refine ⟨hpending, ?_⟩
      by_contra hrefuse
      have hsame := (pending_call hpending
        (.observeFrame display keyFrame)).2.1 display keyFrame rfl
        (Bool.eq_false_of_not_eq_true hrefuse)
      exact h (by rw [hsame])
    · refine absurd ?_ h
      show (run.gate.observeFrame display keyFrame).1.readyGeneration = _
      rw [RustDeskDisplaySwitchGate.observeFrame]
      split
      · rfl
      · split <;> rfl
  | reset => exact Or.inr rfl

/-- Whatever is selected, rejected, acknowledged and shown: a pending
selection ends with a keyframe of its own display, acknowledged since it
began, and with no other frame; outside of one the frames that are accepted
are of the display that was published last; a reject of another generation
does nothing; and the generation that is ready changes only with such a
keyframe, or starts over. -/
theorem display_switch_gate (calls : List GateCall)
    (hfew : calls.countP GateCall.begins < 2 ^ 64) :
    EveryAt (fun before call =>
      let run := runOf before
      let next := run.step call
      (run.gate.inputBlocked = true →
          ((run.gate.call call).2.acceptFrame = true →
            ∃ display, call = .observeFrame display true
              ∧ Awaiting before display true
              ∧ next.gate.inputBlocked = false)
          ∧ (∀ display keyFrame, call = .observeFrame display keyFrame →
            (run.gate.call call).2.acceptFrame = false →
              next.gate = run.gate)
          ∧ (∀ display, call = .observeDisplay display →
            next.gate.pendingDisplay = run.gate.pendingDisplay))
        ∧ (run.gate.inputBlocked = false → ∀ display keyFrame,
          call = .observeFrame display keyFrame →
          (run.gate.call call).2.acceptFrame = true →
            next.published = some display)
        ∧ (∀ generation, call = .reject generation →
          ¬ (run.gate.inputBlocked = true
            ∧ generation = run.gate.generation) → next = run)
        ∧ next.gate.readyGeneration ≤ next.gate.generation
        ∧ (next.gate.readyGeneration ≠ run.gate.readyGeneration →
          (run.gate.inputBlocked = true
            ∧ (run.gate.call call).2.acceptFrame = true)
          ∨ call = .reset)) calls := by
  rintro before call after rfl
  have hbefore : before.countP GateCall.begins < 2 ^ 64 := by
    rw [List.countP_append] at hfew
    omega
  have hcall : (before ++ [call]).countP GateCall.begins < 2 ^ 64 := by
    rw [List.countP_append, List.countP_cons] at hfew
    rw [List.countP_append, List.countP_singleton]
    omega
  have hkept := kept_runOf before hbefore
  have hnext := hkept.step call hcall
  intro run next
  have hblocked : run.gate.inputBlocked = true
      ↔ run.gate.pendingDisplay ≥ 0 := decide_eq_true_iff
  refine ⟨fun hpending => ?_, fun hidle display keyFrame hframe haccept => ?_,
    fun generation hreject hother => ?_, hnext.ready, fun hchange => ?_⟩
  · rw [hblocked] at hpending
    obtain ⟨haccept, hframes, hshown⟩ := pending_call hpending call
    refine ⟨fun h => ?_, hframes, hshown⟩
    obtain ⟨hcall, hseen, hended, -⟩ := haccept h
    have hawaiting := hkept.awaiting hpending
    rw [show (runOf before).gate.acknowledgementSeen = true from hseen]
      at hawaiting
    exact ⟨_, hcall, hawaiting, hended⟩
  · subst hframe
    have hnone : run.gate.pendingDisplay < 0 := by
      rw [← not_le, ← ge_iff_le, ← hblocked, hidle]
      exact Bool.false_ne_true
    exact idle_frame hkept hnone haccept
  · subst hreject
    show GateRun.mk (run.gate.reject generation) run.published = run
    rw [RustDeskDisplaySwitchGate.reject, if_pos]
    rw [hblocked] at hother
    by_cases heq : generation = run.gate.generation
    · exact Or.inr (not_le.mp fun h => hother ⟨h, heq⟩)
    · exact Or.inl heq
  · rw [hblocked]
    exact ready_changes hchange

/-- Two selections, the second in place of the first. -/
theorem display_switch_gate_two :
    EveryAt (fun before call =>
      (runOf before).gate.inputBlocked = true →
      ((runOf before).gate.call call).2.acceptFrame = true →
        ∃ display, call = .observeFrame display true
          ∧ Awaiting before display true)
      [.begin 1, .observeDisplay 1, .begin 2, .observeFrame 1 true,
        .observeDisplay 2, .observeFrame 2 true] := by
  intro before call after hcalls hblocked haccept
  have h := display_switch_gate
    [.begin 1, .observeDisplay 1, .begin 2, .observeFrame 1 true,
      .observeDisplay 2, .observeFrame 2 true] (by decide)
  obtain ⟨display, hcall, hawaiting, -⟩ :=
    ((h before call after hcalls).1 hblocked).1 haccept
  exact ⟨display, hcall, hawaiting⟩

/-- The generation that was ready is lost where the gate starts over. -/
theorem ready_starts_over :
    let calls := [GateCall.begin 1, .observeDisplay 1, .observeFrame 1 true]
    (runOf calls).gate.readyGeneration = 1
      ∧ ((runOf calls).gate.call .reset).2.acceptFrame = false
      ∧ ((runOf calls).step .reset).gate.readyGeneration = 0 := by
  decide

end RemoteDesk.Display
