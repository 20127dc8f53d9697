/-
The life of a receive task: what its callers see, whatever comes between
the steps of its worker.

# The abstract machine

`Lifecycle` keeps of a task where its worker stands towards the locks
(`Stage`), the phase, the flags and the log. Its rules (`LifeStep`) are
the effects a step can have on that: most steps of the worker have none.
`step_simulates` is the one case analysis over the code; every invariant
is then one case per rule.

# The race

The worker checks `cancelled` at the end of a file, lets go of the lock,
and then sets the phase to verifying. A `cancel` in between is
overwritten: the rule for `cancel` carries a condition on the stage, so
that the same rules serve for all runs and for those without the race.
-/
import RemoteDesk.Clipboard.ReceiveTask

namespace RemoteDesk.Clipboard

open Lib

-- ================================== stages

/-- Where the worker stands. -/
inductive Stage where
  | working
  /-- Between the last check of a file and the new phase. -/
  | verifying
  | checking
  | sending
  | leaving
  | finishChecking
  | unlocking
  | finishing
  | ended
deriving DecidableEq, Repr

def WorkerPoint.stage : WorkerPoint → Stage
  | .requesting _ .sendChecking => .checking
  | .requesting _ .sending => .sending
  | .requesting _ (.sendLeaving _) => .leaving
  | .verifying => .verifying
  | .finishChecking => .finishChecking
  | .unlocking => .unlocking
  | .finishing => .finishing
  | .ended => .ended
  | _ => .working

/-- The stages in which the worker has `sendMutex`. -/
def Stage.holds : Stage → Bool
  | .checking | .sending | .leaving => true
  | .finishChecking | .unlocking | .finishing => true
  | _ => false

structure Lifecycle where
  stage : Stage
  held : Bool
  phase : ReceivePhase
  cancelled : Bool
  complete : Bool
  published : List RemoteClipboardArtifact
  pending : Nat
  ready : Bool
  nextStream : Nat
  clipDataId : Nat
  hasUnlocker : Bool
  log : List ReceiveEvent

/-- A task as its callers see it. -/
def ReceiveTask.life (s : ReceiveTask) : Lifecycle where
  stage := s.point.stage
  held := s.sendHeld
  phase := s.status.phase
  cancelled := s.cancelled
  complete := s.complete
  published := s.status.artifacts
  pending := s.pending.streamId
  ready := s.responseReady
  nextStream := s.nextStream
  clipDataId := s.clipDataId
  hasUnlocker := s.hasUnlocker
  log := s.log

/-- What the lock's release adds to the log. -/
def unlockEvents (clipDataId : Nat) (hasUnlocker : Bool) :
    List ReceiveEvent :=
  if clipDataId ≠ 0 ∧ hasUnlocker then [.unlocked clipDataId] else []

/-- The effects of a step; `fair` is what is asked of the stage at which
`cancel` comes. -/
inductive LifeStep (fair : Stage → Prop) : Lifecycle → Lifecycle → Prop
  | release (l : Lifecycle) (stage : l.stage = .working
      ∨ l.stage = .verifying ∨ l.stage = .checking ∨ l.stage = .leaving) :
      LifeStep fair l { l with stage := .working, held := false }
  | skip (l : Lifecycle) (n : Nat) (fresh : l.nextStream ≤ n) :
      LifeStep fair l { l with nextStream := n }
  | ask (l : Lifecycle) (v : RdpClipboardFileRequest)
      (fresh : l.nextStream ≤ v.streamId) :
      LifeStep fair l { l with
        pending := v.streamId
        ready := false
        nextStream := v.streamId + 1
        log := l.log ++ [.asked v] }
  | lockSend (l : Lifecycle) (stage : l.stage = .working) :
      LifeStep fair l { l with stage := .checking, held := true }
  | pass (l : Lifecycle) (stage : l.stage = .checking)
      (live : l.cancelled = false) :
      LifeStep fair l { l with stage := .sending }
  | refuse (l : Lifecycle) (stage : l.stage = .checking) :
      LifeStep fair l { l with stage := .leaving }
  | send (l : Lifecycle) (stage : l.stage = .sending)
      (v : RdpClipboardFileRequest) :
      LifeStep fair l { l with
        stage := .leaving, log := l.log ++ [.sent v] }
  | clear (l : Lifecycle) (stage : l.stage = .working) :
      LifeStep fair l { l with pending := 0, log := l.log ++ [.cleared] }
  | receive (l : Lifecycle) (stage : l.stage = .working)
      (live : l.cancelled = false) :
      LifeStep fair l { l with phase := .receiving }
  | checked (l : Lifecycle) (stage : l.stage = .working)
      (live : l.cancelled = false) :
      LifeStep fair l { l with stage := .verifying }
  | verify (l : Lifecycle) (stage : l.stage = .verifying) :
      LifeStep fair l { l with stage := .working, phase := .verifying }
  | complete (l : Lifecycle) (stage : l.stage = .working) :
      LifeStep fair l { l with complete := true }
  | lockFinish (l : Lifecycle) (stage : l.stage = .working) :
      LifeStep fair l { l with stage := .finishChecking, held := true }
  | finishCheck (l : Lifecycle) (stage : l.stage = .finishChecking) :
      LifeStep fair l { l with
        stage := .unlocking
        complete := l.complete && !l.cancelled }
  | unlock (l : Lifecycle) (stage : l.stage = .unlocking) :
      LifeStep fair l { l with
        stage := .finishing
        log := l.log ++ unlockEvents l.clipDataId l.hasUnlocker }
  | finish (l : Lifecycle) (stage : l.stage = .finishing)
      (artifacts : List RemoteClipboardArtifact) :
      LifeStep fair l { l with
        stage := .ended
        held := false
        pending := 0
        clipDataId := 0
        hasUnlocker := false
        log := l.log ++ [.cleared]
        phase := if l.complete ∧ ¬ l.cancelled then .completed
          else if l.cancelled then .cancelled else .failed
        published := if l.complete ∧ ¬ l.cancelled then artifacts
          else l.published }
  | accept (l : Lifecycle) (success : Bool) (data : List UInt8)
      (live : l.cancelled = false) (asked : l.pending ≠ 0)
      (first : l.ready = false) :
      LifeStep fair l { l with
        ready := true
        log := l.log ++ [.accepted l.pending success data] }
  | cancel (l : Lifecycle) (free : l.held = false)
      (live : terminal l.phase = false) (may : fair l.stage) :
      LifeStep fair l { l with
        cancelled := true
        phase := .cancelling
        log := l.log ++ [.cancelled] }

/-- The runs of the abstract machine. -/
abbrev LifeRun (fair : Stage → Prop) :=
  Relation.ReflTransGen (LifeStep fair)

-- ============================== simulation

variable {fair : Stage → Prop} {l l' : Lifecycle} {v : RdpClipboardFileRequest}

theorem LifeStep.run (h : LifeStep fair l l') : LifeRun fair l l' := .single h

theorem LifeRun.of_eq (h : l = l') : LifeRun fair l l' := h ▸ .refl

namespace ReceiveTask

section Work

variable {s : ReceiveTask} (h : s.point.stage = .working)
include h

theorem life_quit : s.quit.life = s.life := by
  unfold ReceiveTask.life
  rw [h]
  rfl

theorem life_fail (error : String) : (s.fail error).life = s.life := by
  unfold ReceiveTask.life
  rw [h]
  rfl

/-- The worker goes on, and nothing of its life changes. -/
theorem life_working {s' : ReceiveTask}
    (h' : { s'.life with stage := .working }
      = { s.life with stage := .working })
    (stage : s'.point.stage = .working) : s.life = s'.life := by
  have hs : s.life = { s.life with stage := .working } := by
    rw [← h]
    rfl
  have hs' : s'.life = { s'.life with stage := .working } := by
    rw [← stage]
    rfl
  rw [hs, hs', h']

theorem begin_simulates (env : WorkEnv) :
    LifeRun fair s.life (s.begin env).life := by
  apply LifeRun.of_eq
  unfold begin
  split
  · exact (life_quit h).symm
  · split
    · exact life_working h rfl rfl
    · exact (life_fail h _).symm
    · exact life_working h rfl rfl
    · exact life_working h rfl rfl

theorem addSize_life (entry : RemoteClipboardFileEntry) :
    (s.addSize entry).life = s.life := by
  unfold addSize
  split
  · exact life_fail h _
  · symm
    exact life_working h rfl rfl

theorem size_simulates (env : WorkEnv) :
    LifeRun fair s.life (s.size env).life := by
  apply LifeRun.of_eq
  unfold size
  split
  · split
    · exact life_working h rfl rfl
    · exact (life_fail h _).symm
    · exact (life_fail h _).symm
  · split
    · exact (life_quit h).symm
    · split
      · exact life_working h rfl rfl
      · exact (addSize_life h _).symm

theorem sized_life (bytes : List UInt8) : (s.sized bytes).life = s.life := by
  unfold sized
  split
  · rfl
  · split
    · exact life_fail h _
    · dsimp only
      exact addSize_life (by exact h) _

theorem take_life (value : RdpClipboardFileRequest) :
    (s.take value).life = s.life := by
  unfold take
  dsimp only
  split
  · exact sized_life (by exact h) _
  · symm
    split
    · exact life_working h rfl rfl
    · exact life_working h rfl rfl

theorem receiving_simulates : LifeRun fair s.life s.receiving.life := by
  unfold receiving
  split
  · exact .of_eq (life_quit h).symm
  · rename_i hlive
    have hstep := @LifeStep.receive fair s.life h
      (Bool.not_eq_true _ ▸ hlive)
    have hlife : { s.life with phase := .receiving }
        = { s.life with phase := .receiving, stage := .working } := by
      rw [← h]
      rfl
    rw [hlife] at hstep
    exact hstep.run

theorem enter_simulates (env : WorkEnv) :
    LifeRun fair s.life (s.enter env).life := by
  unfold enter
  split
  · exact .of_eq (life_quit h).symm
  · split
    · exact .of_eq (life_working h rfl rfl)
    · split
      · exact .of_eq (life_fail h _).symm
      · have hstep := @LifeStep.complete fair s.life h
        have hlife : { s.life with complete := true }
            = { s.life with complete := true, stage := .working } := by
          rw [← h]
          rfl
        rw [hlife] at hstep
        exact hstep.run

theorem name_simulates (env : WorkEnv) :
    LifeRun fair s.life (s.name env).life := by
  apply LifeRun.of_eq
  unfold name
  split
  · rfl
  · dsimp only
    split
    · split
      · exact life_working h rfl rfl
      · exact life_working h rfl rfl
    · split
      · exact life_working h rfl rfl
      · exact life_working h rfl rfl
      · exact life_working h rfl rfl

theorem copy_simulates : LifeRun fair s.life s.copy.life := by
  unfold copy
  split
  · exact .refl
  · split
    · exact .of_eq (life_quit h).symm
    · rename_i hlive
      split
      · exact .of_eq (life_working h rfl rfl)
      · exact (LifeStep.checked s.life h (Bool.not_eq_true _ ▸ hlive)).run

theorem store_simulates (env : WorkEnv) (value : RdpClipboardFileRequest)
    (bytes : List UInt8) :
    LifeRun fair s.life (s.store env value bytes).life := by
  apply LifeRun.of_eq
  unfold store
  split
  · exact (life_fail h _).symm
  · dsimp only
    split
    · exact life_working h rfl rfl
    · exact life_working h rfl rfl

theorem count_simulates (bytes : Nat) :
    LifeRun fair s.life (s.count bytes).life :=
  .of_eq (life_working h rfl rfl)

end Work

section Points

variable {s : ReceiveTask}

/-- The state, with its stage read off the point. -/
theorem life_stage {stage : Stage} (h : s.point.stage = stage) :
    s.life = { s.life with stage := stage } := by
  rw [← h]
  rfl

theorem admitting_simulates (env : WorkEnv) (h : s.point.stage = .working) :
    LifeRun fair s.life (s.request env v .admitting).life := by
  have hskip := @LifeStep.skip fair s.life
    (s.nextStream + env.skipped + 1)
    (Nat.le_succ_of_le (Nat.le_add_right _ _))
  unfold request
  dsimp only
  split
  · rw [life_fail (by exact h)]
    exact hskip.run
  · split
    · rw [life_quit (by exact h)]
      exact hskip.run
    · split
      · rw [life_fail (by exact h)]
        exact hskip.run
      · have hask := @LifeStep.ask fair s.life
          { v with
            streamId := s.nextStream + env.skipped
            clipDataId := s.clipDataId }
          (Nat.le_add_right _ _)
        rw [life_stage h] at hask ⊢
        exact hask.run

theorem waiting_simulates (env : WorkEnv) (h : s.point.stage = .working) :
    LifeRun fair s.life (s.request env v .waiting).life := by
  have hclear := (@LifeStep.clear fair s.life h).run
  unfold request
  dsimp only
  split
  · split
    · rw [life_fail (by exact h)]
      exact hclear
    · exact .refl
  · split
    · exact .of_eq (life_quit h).symm
    · split
      · rw [take_life (by exact h)]
        exact hclear
      · rw [life_fail (by exact h)]
        exact hclear

theorem request_simulates {point : RequestPoint} (env : WorkEnv)
    (h : s.point = .requesting v point) :
    LifeRun fair s.life (s.request env v point).life := by
  have hstage := congrArg WorkerPoint.stage h
  cases point with
  | admitting => exact admitting_simulates env hstage
  | sendLocking => exact (LifeStep.lockSend s.life hstage).run
  | sendChecking =>
    unfold request
    dsimp only
    split
    · exact (LifeStep.refuse s.life hstage).run
    · rename_i hlive
      exact (LifeStep.pass s.life hstage (Bool.not_eq_true _ ▸ hlive)).run
  | sending => exact (LifeStep.send s.life hstage v).run
  | sendLeaving sent =>
    have hrelease := (@LifeStep.release fair s.life
      (Or.inr (Or.inr (Or.inr hstage)))).run
    cases sent with
    | false => exact hrelease
    | true => exact hrelease
  | waiting => exact waiting_simulates env hstage

theorem verify_simulates (env : WorkEnv) (h : s.point.stage = .verifying) :
    LifeRun fair s.life (s.verify env).life := by
  have hverify := (@LifeStep.verify fair s.life h).run
  unfold verify
  split
  · exact .refl
  · dsimp only
    split
    · exact hverify
    · split
      · exact hverify
      · split
        · exact hverify
        · exact hverify

theorem finishCheck_simulates (env : WorkEnv)
    (h : s.point.stage = .finishChecking) :
    LifeRun fair s.life (s.finishCheck env).life := by
  have hcheck := (@LifeStep.finishCheck fair s.life h).run
  unfold finishCheck
  split
  · rename_i hbad
    have hcomplete : (s.complete && !s.cancelled) = false := by
      cases hc : s.complete <;> simp_all
    change LifeRun fair _ { s.life with
      stage := .unlocking, complete := s.complete && !s.cancelled } at hcheck
    rw [hcomplete] at hcheck
    exact hcheck
  · rename_i hgood
    have hcomplete : (s.complete && !s.cancelled) = s.complete := by
      cases hc : s.complete <;> simp_all
    change LifeRun fair _ { s.life with
      stage := .unlocking, complete := s.complete && !s.cancelled } at hcheck
    rw [hcomplete] at hcheck
    exact hcheck

theorem unlock_simulates (env : WorkEnv)
    (h : s.point.stage = .unlocking) :
    LifeRun fair s.life (s.unlock env).life := by
  have hunlock := (@LifeStep.unlock fair s.life h).run
  change LifeRun fair _ { s.life with
    stage := .finishing
    log := s.log ++ unlockEvents s.clipDataId s.hasUnlocker } at hunlock
  unfold unlock
  dsimp only
  split
  · rename_i hlock
    rw [unlockEvents, if_pos hlock] at hunlock
    split
    · exact hunlock
    · exact hunlock
  · rename_i hlock
    rw [unlockEvents, if_neg hlock, List.append_nil] at hunlock
    exact hunlock

theorem throw_simulates (h : s.point.stage = .working
      ∨ s.point.stage = .verifying ∨ s.point.stage = .checking
      ∨ s.point.stage = .leaving) :
    LifeRun fair s.life s.throw.life :=
  (LifeStep.release s.life h).run

end Points

/-- Every step of the worker is a run of the abstract machine. -/
theorem work_simulates (s : ReceiveTask)
    (env : WorkEnv) : LifeRun fair s.life (s.work env).life := by
  have hstage : ∀ {point}, s.point = point →
      s.point.stage = point.stage := fun h => congrArg WorkerPoint.stage h
  unfold work
  split
  · rename_i h
    exact (LifeStep.lockFinish s.life (hstage h)).run
  · rename_i h
    exact finishCheck_simulates env (hstage h)
  · rename_i h
    exact unlock_simulates env (hstage h)
  · rename_i h
    exact (LifeStep.finish s.life (hstage h) s.artifacts).run
  · exact .refl
  · rename_i v h
    split
    · refine (LifeStep.send s.life (hstage h) v).run.trans ?_
      exact (LifeStep.release _ (Or.inr (Or.inr (Or.inr rfl)))).run
    · exact request_simulates env h
  · rename_i h₁ h₂ h₃ h₄ h₅ h₆
    split
    · apply throw_simulates
      cases hp : s.point with
      | requesting v point =>
        cases point with
        | sending => exact absurd hp (h₆ v)
        | sendChecking => exact Or.inr (Or.inr (Or.inl rfl))
        | sendLeaving sent => exact Or.inr (Or.inr (Or.inr rfl))
        | _ => exact Or.inl rfl
      | verifying => exact Or.inr (Or.inl rfl)
      | finishChecking => exact absurd hp h₂
      | unlocking => exact absurd hp h₃
      | finishing => exact absurd hp h₄
      | ended => exact absurd hp h₅
      | _ => exact Or.inl rfl
    · split
      · rename_i h
        exact begin_simulates (hstage h) env
      · rename_i h
        exact size_simulates (hstage h) env
      · rename_i h
        exact request_simulates env h
      · rename_i h
        exact receiving_simulates (hstage h)
      · rename_i h
        exact enter_simulates (hstage h) env
      · rename_i h
        exact name_simulates (hstage h) env
      · rename_i h
        exact copy_simulates (hstage h)
      · rename_i h
        exact store_simulates (hstage h) env _ _
      · rename_i h
        exact count_simulates (hstage h) _
      · rename_i h
        exact verify_simulates env (hstage h)
      · exact .refl

-- ============================= the callers

theorem response_simulates (s : ReceiveTask) (streamId : Nat) (success : Bool)
    (data : List UInt8) :
    LifeRun fair s.life (s.response streamId success data).life := by
  unfold response
  split
  · exact .refl
  · rename_i hok
    simp only [Bool.or_eq_true, Bool.not_eq_true', decide_eq_true_eq, not_or,
      Bool.not_eq_false, Bool.not_eq_true, ne_eq, not_not] at hok
    obtain ⟨⟨⟨⟨-, hlive⟩, hid⟩, hpending⟩, hready⟩ := hok
    have haccept := @LifeStep.accept fair s.life
      (success && decide (data.length ≤ s.pending.requested)) data hlive
      (by rw [← hpending] at hid; exact hid) hready
    change LifeStep fair _ { s.life with
      ready := true
      log := s.log ++ [.accepted s.pending.streamId
        (success && decide (data.length ≤ s.pending.requested)) data] }
      at haccept
    rw [hpending] at haccept
    exact haccept.run

theorem cancel_simulates {s : ReceiveTask} (h : fair s.point.stage)
    (reason : String) : LifeRun fair s.life (s.cancel reason).life := by
  unfold cancel
  split
  · exact .refl
  · rename_i hfree
    split
    · exact .refl
    · rename_i hok
      rw [Bool.or_eq_true, not_or, Bool.not_eq_true, Bool.not_eq_true]
        at hok
      exact (LifeStep.cancel s.life (Bool.not_eq_true _ ▸ hfree) hok.2 h).run

/-- The stages at which `cancel` may come. -/
def fairAt (fair : Stage → Prop) (s : ReceiveTask) : ReceiveOp → Prop
  | .cancel _ => fair s.point.stage
  | .offerCancel => s.offerCancels ≠ 0 → fair s.point.stage
  | _ => True

/-- Every step of the code is a run of the abstract machine. -/
theorem step_simulates (s : ReceiveTask) (op : ReceiveOp)
    (h : fairAt fair s op) : LifeRun fair s.life (s.step op).life := by
  cases op with
  | work env => exact work_simulates s env
  | response streamId success data =>
    exact response_simulates s streamId success data
  | cancel reason => exact cancel_simulates h reason
  | offerChanged sequence =>
    change LifeRun fair s.life (s.offerChanged sequence).life
    unfold offerChanged
    split
    · exact .refl
    · exact .refl
  | offerCancel =>
    change LifeRun fair s.life s.offerCancel.life
    unfold offerCancel
    split
    · exact .refl
    · rename_i hready
      exact cancel_simulates (s := { s with
        offerCancels := s.offerCancels - 1 }) (h (not_or.mp hready).2) _

end ReceiveTask

-- ============================== invariants

/-- An event that neither sets nor drops the pending request. -/
def Quiet : ReceiveEvent → Prop
  | .asked _ => False
  | .cleared => False
  | _ => True

def ReceiveEvent.isUnlock : ReceiveEvent → Bool
  | .unlocked _ => true
  | _ => false

/-- What is required of an event, given those before it: nothing is sent
after a cancellation, and an answer is taken for the pending request,
once. -/
def Lawful (before : List ReceiveEvent) : ReceiveEvent → Prop
  | .sent _ => .cancelled ∉ before
  | .accepted id _ _ => id ≠ 0
      ∧ (∃ v, v.streamId = id ∧ Since (.asked v) Quiet before)
      ∧ ∀ success data, .accepted id success data ∉ before
  | _ => True

/-- What holds of a task in every run. `lock` is the events its lock is
released with. -/
structure Sound (lock : List ReceiveEvent) (l : Lifecycle) : Prop where
  held : l.held = l.stage.holds
  ended : terminal l.phase = true ↔ l.stage = .ended
  logged : l.cancelled = true ↔ .cancelled ∈ l.log
  sending : l.stage = .sending → l.cancelled = false
  settled : l.stage = .unlocking ∨ l.stage = .finishing →
    l.cancelled = true → l.complete = false
  published : l.published ≠ [] → l.stage = .ended ∧ l.cancelled = false
  last : l.stage = .ended → l.cancelled = true → l.phase = .cancelled
  stream_pos : 0 < l.nextStream
  pending_lt : l.pending < l.nextStream
  asked : l.pending ≠ 0 →
    ∃ v, v.streamId = l.pending ∧ Since (.asked v) Quiet l.log
  accepted_lt : ∀ id success data, .accepted id success data ∈ l.log →
    0 < id ∧ id < l.nextStream
  accepted_once : l.ready = false → ∀ success data,
    .accepted l.pending success data ∉ l.log
  locked : l.stage ≠ .ended → unlockEvents l.clipDataId l.hasUnlocker = lock
  unlocks : l.log.filter ReceiveEvent.isUnlock
    = if l.stage = .finishing ∨ l.stage = .ended then lock else []
  lawful : EveryAt Lawful l.log

section Sound

variable {lock : List ReceiveEvent}

theorem mem_snoc_iff {e x : ReceiveEvent} {log : List ReceiveEvent} :
    x ∈ log ++ [e] ↔ x ∈ log ∨ x = e := by simp

/-- The worker moves on, before the end. -/
theorem Sound.move (h : Sound lock l) {stage : Stage} {held : Bool}
    (hheld : held = stage.holds)
    (hold : l.stage ≠ .finishing ∧ l.stage ≠ .ended)
    (hnew : stage ≠ .unlocking ∧ stage ≠ .finishing ∧ stage ≠ .ended)
    (hlive : stage = .sending → l.cancelled = false) :
    Sound lock { l with stage := stage, held := held } :=
  { h with
    held := hheld
    ended := ⟨fun ht => absurd (h.ended.mp ht) hold.2,
      fun hs => absurd hs hnew.2.2⟩
    sending := hlive
    settled := by
      rintro (hs | hs)
      · exact absurd hs hnew.1
      · exact absurd hs hnew.2.1
    published := fun hne => absurd (h.published hne).1 hold.2
    last := fun hs => absurd hs hnew.2.2
    locked := fun _ => h.locked hold.2
    unlocks := by
      have hunlocks := h.unlocks
      rw [if_neg (not_or.mpr hold)] at hunlocks
      rw [if_neg (not_or.mpr hnew.2), ← hunlocks] }

/-- The phase changes before the end. -/
theorem Sound.setPhase (h : Sound lock l) {phase : ReceivePhase}
    (hphase : terminal phase = false) (hstage : l.stage ≠ .ended) :
    Sound lock { l with phase := phase } :=
  { h with
    ended := by
      constructor
      · intro ht
        rw [show terminal phase = false from hphase] at ht
        cases ht
      · exact fun hs => absurd hs hstage
    last := fun hs => absurd hs hstage }

theorem Sound.skip (h : Sound lock l) {n : Nat} (hn : l.nextStream ≤ n) :
    Sound lock { l with nextStream := n } :=
  { h with
    stream_pos := h.stream_pos.trans_le hn
    pending_lt := h.pending_lt.trans_le hn
    accepted_lt := fun id success data hmem =>
      ⟨(h.accepted_lt id success data hmem).1,
        (h.accepted_lt id success data hmem).2.trans_le hn⟩ }

theorem Sound.ask (h : Sound lock l) (hv : l.nextStream ≤ v.streamId) :
    Sound lock { l with
      pending := v.streamId
      ready := false
      nextStream := v.streamId + 1
      log := l.log ++ [.asked v] } :=
  { h with
    logged := by
      rw [h.logged, mem_snoc_iff]
      simp
    stream_pos := Nat.succ_pos _
    pending_lt := Nat.lt_succ_self _
    asked := fun _ => ⟨v, rfl, since_self⟩
    accepted_lt := by
      intro id success data hmem
      have hold : .accepted id success data ∈ l.log := by
        simpa using mem_snoc_iff.mp hmem
      have hlt := h.accepted_lt id success data hold
      exact ⟨hlt.1, by
        change id < v.streamId + 1
        omega⟩
    accepted_once := by
      intro _ success data hmem
      have hold : .accepted v.streamId success data ∈ l.log := by
        simpa using mem_snoc_iff.mp hmem
      have hlt := h.accepted_lt _ _ _ hold
      omega
    unlocks := by
      rw [List.filter_append, h.unlocks]
      simp [ReceiveEvent.isUnlock]
    lawful := everyAt_snoc.mpr ⟨h.lawful, trivial⟩ }

theorem Sound.clear (h : Sound lock l) :
    Sound lock { l with pending := 0, log := l.log ++ [.cleared] } :=
  { h with
    logged := by
      rw [h.logged, mem_snoc_iff]
      simp
    pending_lt := h.stream_pos
    asked := fun h0 => absurd rfl h0
    accepted_lt := by
      intro id success data hmem
      apply h.accepted_lt id success data
      simpa using mem_snoc_iff.mp hmem
    accepted_once := by
      intro _ success data hmem
      have hold : .accepted 0 success data ∈ l.log := by
        simpa using mem_snoc_iff.mp hmem
      exact absurd (h.accepted_lt _ _ _ hold).1 (Nat.lt_irrefl 0)
    unlocks := by
      rw [List.filter_append, h.unlocks]
      simp [ReceiveEvent.isUnlock]
    lawful := everyAt_snoc.mpr ⟨h.lawful, trivial⟩ }

theorem Sound.sent (h : Sound lock l) (hlive : l.cancelled = false)
    (v : RdpClipboardFileRequest) :
    Sound lock { l with log := l.log ++ [.sent v] } :=
  { h with
    logged := by
      rw [h.logged, mem_snoc_iff]
      simp
    asked := fun h0 => by
      obtain ⟨w, hw, hsince⟩ := h.asked h0
      exact ⟨w, hw, hsince.snoc trivial⟩
    accepted_lt := by
      intro id success data hmem
      apply h.accepted_lt id success data
      simpa using mem_snoc_iff.mp hmem
    accepted_once := by
      intro hready success data hmem
      apply h.accepted_once hready success data
      simpa using mem_snoc_iff.mp hmem
    unlocks := by
      rw [List.filter_append, h.unlocks]
      simp [ReceiveEvent.isUnlock]
    lawful := by
      refine everyAt_snoc.mpr ⟨h.lawful, ?_⟩
      intro hmem
      rw [h.logged.mpr hmem] at hlive
      cases hlive }

theorem Sound.accept (h : Sound lock l) (success : Bool)
    (data : List UInt8) (hpending : l.pending ≠ 0)
    (hready : l.ready = false) :
    Sound lock { l with
      ready := true
      log := l.log ++ [.accepted l.pending success data] } :=
  { h with
    logged := by
      rw [h.logged, mem_snoc_iff]
      simp
    asked := fun h0 => by
      obtain ⟨w, hw, hsince⟩ := h.asked h0
      exact ⟨w, hw, hsince.snoc trivial⟩
    accepted_lt := by
      intro id ok bytes hmem
      rcases mem_snoc_iff.mp hmem with hmem | heq
      · exact h.accepted_lt id ok bytes hmem
      · cases heq
        exact ⟨Nat.pos_of_ne_zero hpending, h.pending_lt⟩
    accepted_once := by
      intro hfalse
      cases hfalse
    unlocks := by
      rw [List.filter_append, h.unlocks]
      simp [ReceiveEvent.isUnlock]
    lawful := everyAt_snoc.mpr ⟨h.lawful, hpending, h.asked hpending,
      h.accepted_once hready⟩ }

theorem Sound.cancel (h : Sound lock l) (hfree : l.held = false)
    (hlive : terminal l.phase = false) :
    Sound lock { l with
      cancelled := true
      phase := .cancelling
      log := l.log ++ [.cancelled] } := by
  have hended : l.stage ≠ .ended := by
    intro hs
    rw [h.ended.mpr hs] at hlive
    cases hlive
  have hholds : l.stage.holds = false := h.held ▸ hfree
  exact { h with
    ended := by
      constructor
      · intro ht
        cases ht
      · exact fun hs => absurd hs hended
    logged := by simp
    sending := by
      intro hs
      change l.stage = .sending at hs
      rw [hs] at hholds
      cases hholds
    settled := by
      rintro (hs | hs) <;>
        · change l.stage = _ at hs
          rw [hs] at hholds
          cases hholds
    published := fun hne => absurd (h.published hne).1 hended
    last := fun hs => absurd hs hended
    asked := fun h0 => by
      obtain ⟨w, hw, hsince⟩ := h.asked h0
      exact ⟨w, hw, hsince.snoc trivial⟩
    accepted_lt := by
      intro id success data hmem
      apply h.accepted_lt id success data
      simpa using mem_snoc_iff.mp hmem
    accepted_once := by
      intro hready success data hmem
      apply h.accepted_once hready success data
      simpa using mem_snoc_iff.mp hmem
    unlocks := by
      rw [List.filter_append, h.unlocks]
      simp [ReceiveEvent.isUnlock]
    lawful := everyAt_snoc.mpr ⟨h.lawful, trivial⟩ }

theorem Sound.setComplete (h : Sound lock l) (hstage : l.stage = .working) :
    Sound lock { l with complete := true } :=
  { h with
    settled := by
      rintro (hs | hs)
      · exact absurd (hstage.symm.trans hs) (by decide)
      · exact absurd (hstage.symm.trans hs) (by decide) }

theorem Sound.finishCheck (h : Sound lock l)
    (hstage : l.stage = .finishChecking) :
    Sound lock { l with
      stage := .unlocking, complete := l.complete && !l.cancelled } :=
  { h with
    held := by
      rw [h.held, hstage]
      rfl
    ended := by
      rw [h.ended, hstage]
      simp
    sending := by
      intro hs
      cases hs
    settled := by
      intro _ hc
      change l.cancelled = true at hc
      rw [hc, Bool.not_true, Bool.and_false]
    published := fun hne => absurd
      (hstage.symm.trans (h.published hne).1) (by decide)
    last := by
      intro hs
      cases hs
    locked := fun _ => h.locked (by rw [hstage]; decide)
    unlocks := by
      have hunlocks := h.unlocks
      rw [hstage] at hunlocks
      rw [hunlocks]
      rfl }

theorem filter_unlockEvents (clipDataId : Nat) (hasUnlocker : Bool) :
    (unlockEvents clipDataId hasUnlocker).filter ReceiveEvent.isUnlock
      = unlockEvents clipDataId hasUnlocker := by
  unfold unlockEvents
  split <;> rfl

theorem mem_unlockEvents {clipDataId : Nat} {hasUnlocker : Bool}
    {e : ReceiveEvent} (h : e ∈ unlockEvents clipDataId hasUnlocker) :
    e = .unlocked clipDataId := by
  unfold unlockEvents at h
  split at h
  · simpa using h
  · cases h

theorem Sound.unlock (h : Sound lock l) (hstage : l.stage = .unlocking) :
    Sound lock { l with
      stage := .finishing
      log := l.log ++ unlockEvents l.clipDataId l.hasUnlocker } := by
  have hother : ∀ {e}, e ∈ l.log ++ unlockEvents l.clipDataId l.hasUnlocker →
      e.isUnlock = false → e ∈ l.log := by
    intro e he hkind
    rcases List.mem_append.mp he with he | he
    · exact he
    · rw [mem_unlockEvents he] at hkind
      cases hkind
  exact { h with
    held := by
      rw [h.held, hstage]
      rfl
    ended := by
      rw [h.ended, hstage]
      simp
    logged := by
      rw [h.logged]
      exact ⟨fun hm => List.mem_append_left _ hm, fun hm => hother hm rfl⟩
    sending := by
      intro hs
      cases hs
    settled := fun _ => h.settled (Or.inl hstage)
    published := fun hne => absurd
      (hstage.symm.trans (h.published hne).1) (by decide)
    last := by
      intro hs
      cases hs
    asked := fun h0 => by
      obtain ⟨w, hw, hsince⟩ := h.asked h0
      refine ⟨w, hw, ?_⟩
      unfold unlockEvents
      split
      · exact hsince.snoc trivial
      · rwa [List.append_nil]
    accepted_lt := fun id success data hm =>
      h.accepted_lt id success data (hother hm rfl)
    accepted_once := fun hready success data hm =>
      h.accepted_once hready success data (hother hm rfl)
    locked := fun _ => h.locked (by rw [hstage]; decide)
    unlocks := by
      have hunlocks := h.unlocks
      rw [hstage, if_neg (by decide)] at hunlocks
      rw [List.filter_append, hunlocks, filter_unlockEvents,
        h.locked (by rw [hstage]; decide), if_pos (Or.inl rfl)]
      rfl
    lawful := by
      unfold unlockEvents
      split
      · exact everyAt_snoc.mpr ⟨h.lawful, trivial⟩
      · rw [List.append_nil]
        exact h.lawful }

theorem Sound.finish (h : Sound lock l) (hstage : l.stage = .finishing)
    (artifacts : List RemoteClipboardArtifact) :
    Sound lock { l with
      stage := .ended
      held := false
      pending := 0
      clipDataId := 0
      hasUnlocker := false
      log := l.log ++ [.cleared]
      phase := if l.complete ∧ ¬ l.cancelled then .completed
        else if l.cancelled then .cancelled else .failed
      published := if l.complete ∧ ¬ l.cancelled then artifacts
        else l.published } :=
  { h.clear with
    held := rfl
    ended := by
      refine ⟨fun _ => rfl, fun _ => ?_⟩
      dsimp only
      split
      · rfl
      · split <;> rfl
    sending := by
      intro hs
      cases hs
    settled := by
      rintro (hs | hs) <;> cases hs
    published := by
      intro hne
      refine ⟨rfl, ?_⟩
      dsimp only at hne ⊢
      split at hne
      · rename_i hdone
        exact Bool.not_eq_true _ ▸ hdone.2
      · exact absurd (hstage.symm.trans (h.published hne).1) (by decide)
    last := by
      intro _ hc
      change l.cancelled = true at hc
      have hcomplete := h.settled (Or.inr hstage) hc
      dsimp only
      rw [hcomplete, hc]
      rfl
    locked := fun hne => absurd rfl hne
    unlocks := by
      have hunlocks := h.clear.unlocks
      rw [if_pos (Or.inl hstage)] at hunlocks
      rw [if_pos (Or.inr rfl)]
      exact hunlocks }

/-- Every rule keeps a task sound. -/
theorem Sound.step (h : Sound lock l)
    (hstep : LifeStep fair l l') : Sound lock l' := by
  cases hstep with
  | release stage =>
    apply h.move rfl _ (by decide) (fun hs => absurd hs (by decide))
    rcases stage with hs | hs | hs | hs <;> rw [hs] <;> decide
  | skip n fresh => exact h.skip fresh
  | ask v fresh => exact h.ask fresh
  | lockSend stage =>
    apply h.move rfl _ (by decide) (fun hs => absurd hs (by decide))
    rw [stage]
    decide
  | pass stage live =>
    apply h.move _ _ (by decide) (fun _ => live)
    · rw [h.held, stage]
      rfl
    · rw [stage]
      decide
  | refuse stage =>
    apply h.move _ _ (by decide) (fun hs => absurd hs (by decide))
    · rw [h.held, stage]
      rfl
    · rw [stage]
      decide
  | send stage v =>
    apply (h.sent (h.sending stage) v).move _ _ (by decide)
      (fun hs => absurd hs (by decide))
    · rw [h.held, stage]
      rfl
    · change l.stage ≠ _ ∧ l.stage ≠ _
      rw [stage]
      decide
  | clear stage => exact h.clear
  | receive stage live =>
    apply h.setPhase rfl
    rw [stage]
    decide
  | checked stage live =>
    apply h.move _ _ (by decide) (fun hs => absurd hs (by decide))
    · rw [h.held, stage]
      rfl
    · rw [stage]
      decide
  | verify stage =>
    have hphase := @Sound.setPhase _ _ h .verifying rfl
      (by rw [stage]; decide)
    apply hphase.move _ _ (by decide) (fun hs => absurd hs (by decide))
    · rw [h.held, stage]
      rfl
    · change l.stage ≠ _ ∧ l.stage ≠ _
      rw [stage]
      decide
  | complete stage => exact h.setComplete stage
  | lockFinish stage =>
    apply h.move rfl _ (by decide) (fun hs => absurd hs (by decide))
    rw [stage]
    decide
  | finishCheck stage => exact h.finishCheck stage
  | unlock stage => exact h.unlock stage
  | finish stage artifacts => exact h.finish stage artifacts
  | accept success data live asked first =>
    exact h.accept success data asked first
  | cancel free live may => exact h.cancel free live

theorem Sound.run (h : Sound lock l)
    (hrun : LifeRun fair l l') : Sound lock l' :=
  reflTransGen_invariant (fun _ _ hstep hs => hs.step hstep) hrun h

end Sound

-- ================================= the end

/-- A task that has ended: its phase and artifacts stay. -/
theorem LifeStep.ended {lock : List ReceiveEvent} (hs : Sound lock l)
    (hstep : LifeStep fair l l') (h : l.stage = .ended) :
    l'.stage = .ended ∧ l'.phase = l.phase ∧ l'.published = l.published := by
  have hphase := hs.ended.mpr h
  cases hstep with
  | release stage =>
    rw [h] at stage
    rcases stage with hs | hs | hs | hs <;> cases hs
  | skip n fresh => exact ⟨h, rfl, rfl⟩
  | ask v fresh => exact ⟨h, rfl, rfl⟩
  | accept success data live asked first => exact ⟨h, rfl, rfl⟩
  | cancel free live may =>
    rw [hphase] at live
    cases live
  | _ stage => exact absurd (h.symm.trans stage) (by decide)

theorem LifeRun.ended {lock : List ReceiveEvent} (hs : Sound lock l)
    (hrun : LifeRun fair l l') (h : l.stage = .ended) :
    l'.stage = .ended ∧ l'.phase = l.phase ∧ l'.published = l.published := by
  induction hrun with
  | refl => exact ⟨h, rfl, rfl⟩
  | tail hrun hstep ih =>
    obtain ⟨hstage, hphase, hpub⟩ := ih
    obtain ⟨hstage', hphase', hpub'⟩ := hstep.ended (hs.run hrun) hstage
    exact ⟨hstage', hphase'.trans hphase, hpub'.trans hpub⟩

-- ================================ the race

/-- No cancellation overtaken: what holds without the race. -/
structure Unraced (l : Lifecycle) : Prop where
  live : l.stage = .verifying → l.cancelled = false
  cancelling : l.cancelled = true → l.stage ≠ .ended →
    l.phase = .cancelling

/-- Where `cancel` does no harm. -/
def NotVerifying (stage : Stage) : Prop := stage ≠ .verifying

theorem Unraced.step (h : Unraced l)
    (hstep : LifeStep NotVerifying l l') : Unraced l' := by
  cases hstep with
  | release stage =>
    refine ⟨fun hs => (by cases hs), fun hc _ => h.cancelling hc ?_⟩
    rcases stage with hs | hs | hs | hs <;> rw [hs] <;> decide
  | skip n fresh => exact ⟨h.live, h.cancelling⟩
  | ask v fresh => exact ⟨h.live, h.cancelling⟩
  | clear stage => exact ⟨h.live, h.cancelling⟩
  | accept success data live asked first => exact ⟨h.live, h.cancelling⟩
  | complete stage => exact ⟨h.live, h.cancelling⟩
  | receive stage live =>
    refine ⟨h.live, fun hc => ?_⟩
    rw [show l.cancelled = true from hc] at live
    cases live
  | checked stage live =>
    refine ⟨fun _ => live, fun hc => ?_⟩
    rw [show l.cancelled = true from hc] at live
    cases live
  | verify stage =>
    refine ⟨fun hs => (by cases hs), fun hc => ?_⟩
    have hlive := h.live stage
    rw [show l.cancelled = true from hc] at hlive
    cases hlive
  | finish stage artifacts =>
    exact ⟨fun hs => (by cases hs), fun _ hne => absurd rfl hne⟩
  | cancel free live may =>
    exact ⟨fun hs => absurd hs may, fun _ _ => rfl⟩
  | pass stage live =>
    refine ⟨fun hs => (by cases hs), fun hc _ => h.cancelling hc ?_⟩
    rw [stage]
    decide
  | send stage v =>
    refine ⟨fun hs => (by cases hs), fun hc _ => h.cancelling hc ?_⟩
    rw [stage]
    decide
  | _ stage =>
    refine ⟨fun hs => (by cases hs), fun hc _ => h.cancelling hc ?_⟩
    rw [stage]
    decide

theorem Unraced.run (h : Unraced l)
    (hrun : LifeRun NotVerifying l l') : Unraced l' :=
  reflTransGen_invariant (fun _ _ hstep hs => hs.step hstep) hrun h

end RemoteDesk.Clipboard
