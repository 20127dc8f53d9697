/-
What the callers of a receive task can rely on, from its start to its
end.

# Cancellation

After `cancel` has returned true nothing is sent and nothing is
published, in every run. The phase it leaves is kept only in the runs
where it does not come between the last check of a file and the phase of
its verification (`Overtakes`): the code sets `receiving` under the lock
it checked `cancelled` with, and `verifying` under the next one.
-/
import RemoteDesk.Clipboard.ReceiveLifecycle
import RemoteDesk.Clipboard.ReceiveProgress

namespace RemoteDesk.Clipboard

open Lib

-- =============================== the start

variable {point : WorkerPoint}

theorem WorkerPoint.stage_ended : point.stage = .ended ↔ point = .ended := by
  constructor
  · intro h
    cases point with
    | requesting v point => cases point <;> cases h
    | ended => rfl
    | _ => cases h
  · rintro rfl
    rfl

theorem WorkerPoint.stage_finishing :
    point.stage = .finishing ↔ point = .finishing := by
  constructor
  · intro h
    cases point with
    | requesting v point => cases point <;> cases h
    | finishing => rfl
    | _ => cases h
  · rintro rfl
    rfl

theorem WorkerPoint.stage_verifying :
    point.stage = .verifying ↔ point = .verifying := by
  constructor
  · intro h
    cases point with
    | requesting v point => cases point <;> cases h
    | verifying => rfl
    | _ => cases h
  · rintro rfl
    rfl

namespace ReceiveTask

section Start

variable {maxTotalBytes taskId : Nat} {offer : RemoteClipboardFileOffer}
  {selected : List Nat} {clipDataId : Nat} {hasUnlocker : Bool}
  {taken : Nat} {s₀ : ReceiveTask}
  (h : start maxTotalBytes taskId offer selected clipDataId hasUnlocker
    taken = some s₀)
include h

theorem start_life : s₀.life = {
    stage := .working
    held := false
    phase := .queued
    cancelled := false
    complete := false
    published := []
    pending := 0
    ready := false
    nextStream := taken + 1
    clipDataId := clipDataId
    hasUnlocker := hasUnlocker
    log := [] } := by
  unfold start at h
  dsimp only at h
  repeat' split at h
  all_goals cases h
  rfl

theorem start_sound : Sound (unlockEvents clipDataId hasUnlocker) s₀.life := by
  rw [start_life h]
  exact {
    held := rfl
    ended := ⟨fun ht => (by cases ht), fun hs => (by cases hs)⟩
    logged := ⟨fun hc => (by cases hc), fun hm => (by cases hm)⟩
    sending := fun hs => (by cases hs)
    settled := fun _ hc => (by cases hc)
    published := fun hne => absurd rfl hne
    last := fun hs => (by cases hs)
    stream_pos := Nat.succ_pos _
    pending_lt := Nat.succ_pos _
    asked := fun h0 => absurd rfl h0
    accepted_lt := fun _ _ _ hm => (by cases hm)
    accepted_once := fun _ _ _ hm => (by cases hm)
    locked := fun _ => rfl
    unlocks := rfl
    lawful := everyAt_nil _ }

theorem start_unraced : Unraced s₀.life := by
  rw [start_life h]
  exact ⟨fun hs => (by cases hs), fun hc => (by cases hc)⟩

end Start

-- ============================= the outcome

/-- `cancel` comes between the last check of a file and the phase
`verifying`. -/
def Overtakes (s : ReceiveTask) : ReceiveOp → Prop
  | .cancel _ => s.point = .verifying
  | .offerCancel => s.offerCancels ≠ 0 ∧ s.point = .verifying
  | _ => False

instance (s : ReceiveTask) (op : ReceiveOp) :
    Decidable (s.Overtakes op) := by
  unfold Overtakes
  cases op <;> infer_instance

theorem fairAt_of_not_overtakes {s : ReceiveTask} {op : ReceiveOp}
    (h : ¬ s.Overtakes op) : fairAt NotVerifying s op := by
  cases op with
  | cancel reason =>
    exact fun hstage => h (WorkerPoint.stage_verifying.mp hstage)
  | offerCancel =>
    exact fun h0 hstage => h ⟨h0, WorkerPoint.stage_verifying.mp hstage⟩
  | _ => trivial

theorem run_simulates (s : ReceiveTask) (ops : List ReceiveOp) :
    LifeRun (fun _ => True) s.life (exec ReceiveTask.step s ops).life := by
  have hmeets : Meets ReceiveTask.step (fairAt fun _ => True) s ops := by
    induction ops generalizing s with
    | nil => trivial
    | cons op ops ih =>
      refine ⟨?_, ih _⟩
      cases op <;> simp [fairAt]
  exact @Meets.simulates _ _ ReceiveTask.step _ _ ReceiveTask.life
    (LifeStep fun _ => True)
    (fun s op hfair => step_simulates s op hfair) _ _ hmeets

/-- A task that has ended stays as it is reported, whatever comes. -/
theorem ended_stays {lock : List ReceiveEvent} {s : ReceiveTask}
    (h : Sound lock s.life) (hended : s.point = .ended)
    (ops : List ReceiveOp) :
    (exec ReceiveTask.step s ops).status.phase = s.status.phase
      ∧ (exec ReceiveTask.step s ops).status.artifacts
        = s.status.artifacts :=
  ((s.run_simulates ops).ended h
    (WorkerPoint.stage_ended.mpr hended)).2

section Outcome

variable {maxTotalBytes taskId : Nat} {offer : RemoteClipboardFileOffer}
  {selected : List Nat} {clipDataId : Nat} {hasUnlocker : Bool}
  {taken : Nat} {s₀ : ReceiveTask}

/-- A run in which no `cancel` overtakes the verification of a file. -/
theorem lifecycle
    (h : start maxTotalBytes taskId offer selected clipDataId hasUnlocker
      taken = some s₀) {ops : List ReceiveOp}
    (hops : Meets ReceiveTask.step (fun s op => ¬ s.Overtakes op) s₀ ops) :
    let s := exec ReceiveTask.step s₀ ops
    EveryAt Lawful s.log
    ∧ (.cancelled ∈ s.log →
      s.status.phase = (if s.point = .ended then .cancelled else .cancelling)
        ∧ s.status.artifacts = [])
    ∧ (terminal s.status.phase = true ↔ s.point = .ended)
    ∧ (terminal s.status.phase = true → ∀ more : List ReceiveOp,
      (exec ReceiveTask.step s more).status.phase = s.status.phase
        ∧ (exec ReceiveTask.step s more).status.artifacts
          = s.status.artifacts)
    ∧ s.log.filter ReceiveEvent.isUnlock
      = (if s.point = .finishing ∨ s.point = .ended
        then unlockEvents clipDataId hasUnlocker else [])
    ∧ (s₀.fuel ≤ s₀.turns ops → terminal s.status.phase = true) := by
  have hrun : LifeRun NotVerifying s₀.life
      (exec ReceiveTask.step s₀ ops).life :=
    @Meets.simulates _ _ ReceiveTask.step _ _ ReceiveTask.life
      (LifeStep NotVerifying)
      (fun s op hfair => step_simulates s op (fairAt_of_not_overtakes hfair))
      _ _ hops
  have hsound := (start_sound h).run hrun
  have hunraced := (start_unraced h).run hrun
  intro s
  have hended : terminal s.status.phase = true ↔ s.point = .ended :=
    hsound.ended.trans WorkerPoint.stage_ended
  refine ⟨hsound.lawful, ?_, hended, ?_, ?_, ?_⟩
  · intro hmem
    have hcancelled := hsound.logged.mpr hmem
    refine ⟨?_, ?_⟩
    · split
      · rename_i hp
        exact hsound.last (WorkerPoint.stage_ended.mpr hp) hcancelled
      · rename_i hp
        exact hunraced.cancelling hcancelled
          fun hs => hp (WorkerPoint.stage_ended.mp hs)
    · by_contra hne
      rw [(hsound.published hne).2] at hcancelled
      cases hcancelled
  · exact fun hterminal => ended_stays hsound (hended.mp hterminal)
  · have hunlocks := hsound.unlocks
    simp only [life, WorkerPoint.stage_finishing, WorkerPoint.stage_ended]
      at hunlocks
    exact hunlocks
  · exact fun hturns => hended.mpr (exec_ended (start_good h) hturns)

/-- A cancellation during the wait for an answer. -/
theorem lifecycle_cancelled :
    let ops := List.replicate 12 (.work {}) ++ [.cancel "user"]
      ++ List.replicate 30 (.work {})
    ∃ s₀, start 1000 1 oneFile [0] 9 true 0 = some s₀
      ∧ (exec ReceiveTask.step s₀ ops).status.phase = .cancelled
      ∧ (exec ReceiveTask.step s₀ ops).status.artifacts = [] := by
  refine ⟨_, rfl, ?_⟩
  have h := (@lifecycle 1000 1 oneFile [0] 9 true 0 _ rfl
    (List.replicate 12 (.work {}) ++ [.cancel "user"]
      ++ List.replicate 30 (.work {})) (by decide +kernel)).2.1
    (by decide +kernel)
  exact ⟨h.1.trans (if_pos (by decide +kernel)), h.2⟩

/-- The file is there, `cancel` returns true, and the worker, which has
checked for it before, reports the verification of the file. -/
theorem cancel_overtaken :
    let ops := List.replicate 12 (.work {}) ++ [.response 1 true [1, 2, 3]]
      ++ List.replicate 4 (.work {}) ++ [.cancel "user", .work {}]
    ∃ s₀, start 1000 1 oneFile [0] 9 true 0 = some s₀
      ∧ .cancelled ∈ (exec ReceiveTask.step s₀ ops).log
      ∧ (exec ReceiveTask.step s₀ ops).status.phase = .verifying :=
  ⟨_, rfl, by decide +kernel, by decide +kernel⟩

end Outcome

end ReceiveTask

end RemoteDesk.Clipboard
