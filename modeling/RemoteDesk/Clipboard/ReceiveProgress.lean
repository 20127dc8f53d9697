/-
The worker of a receive task ends, whatever the peer answers; and what
it has written when it completes.

# The measure

`fuel` prices what is left: a turn of the loop over the sizes at
twenty, a file at ten for each byte of the budget, and each point
within a turn by its distance to the next. Every step of the worker
lowers it, except one: the wait for an answer that has neither come nor
timed out (`waits`). So after `fuel` steps that are not waits the worker
has ended (`exec_ended`), and since the peer's answers do not enter the
measure the bound is the same for all of them.
-/
import RemoteDesk.Clipboard.ReceiveContent

namespace RemoteDesk.Clipboard

open Lib

-- ============================= the measure

/-- The steps from a point of `request` to its return. -/
def RequestPoint.cost : RequestPoint → Nat
  | .admitting => 6
  | .sendLocking => 5
  | .sendChecking => 4
  | .sending => 3
  | .sendLeaving _ => 2
  | .waiting => 1

namespace Content

/-- The price of `count` files: no file is larger than the budget. -/
def batch (c : Content) (count : Nat) : Nat := count * (10 * c.limit + 20)

/-- The bytes of the file in hand still to come. -/
def left (c : Content) : Nat :=
  match c.entries[c.next]? with
  | none => 0
  | some e => e.size - c.offset

/-- The steps left before the worker ends, at most. -/
def fuel (c : Content) : WorkerPoint → Nat
  | .queued =>
    20 * (c.entries.length - c.next) + c.batch c.entries.length + 22
  | .sizing =>
    20 * (c.entries.length - c.next) + c.batch c.entries.length + 21
  | .requesting v point =>
    point.cost
      + if v.sizeQuery then
          20 * (c.entries.length - c.next - 1)
            + c.batch c.entries.length + 21
        else c.batch (c.entries.length - c.next - 1)
          + 10 * (c.left - 1) + 16
  | .starting => c.batch c.entries.length + 13
  | .entering => c.batch (c.entries.length - c.next) + 12
  | .naming => c.batch (c.entries.length - c.next) + 11
  | .copying =>
    c.batch (c.entries.length - c.next - 1) + 10 * c.left + 14
  | .budgeting _ _ =>
    c.batch (c.entries.length - c.next - 1) + 10 * (c.left - 1) + 16
  | .counting _ =>
    c.batch (c.entries.length - c.next - 1) + 10 * c.left + 15
  | .verifying => c.batch (c.entries.length - c.next - 1) + 13
  | .finishLocking => 4
  | .finishChecking => 3
  | .unlocking => 2
  | .finishing => 1
  | .ended => 0

theorem left_eq {c : Content} {e : RemoteClipboardFileEntry}
    (he : c.entries[c.next]? = some e) : c.left = e.size - c.offset := by
  rw [left, he]

/-- One file and the rest of them. -/
theorem batch_next {c : Content} (h : c.next < c.entries.length) :
    c.batch (c.entries.length - c.next)
      = c.batch (c.entries.length - c.next - 1)
        + (10 * c.limit + 20) := by
  obtain ⟨k, hk⟩ := Nat.exists_eq_add_of_lt h
  have hrest : c.entries.length - c.next - 1 = k := by omega
  have hall : c.entries.length - c.next = k + 1 := by omega
  rw [hrest, hall, batch, batch, Nat.succ_mul]

end Content

namespace ReceiveTask

/-- The steps the worker has left, at most. -/
def fuel (s : ReceiveTask) : Nat := s.content.fuel s.point

variable {s : ReceiveTask}

theorem fuel_at {point : WorkerPoint}
    (hp : s.point = point) : s.fuel = s.content.fuel point := by
  rw [fuel, hp]

theorem ended_of_fuel (h : s.fuel = 0) : s.point = .ended := by
  unfold fuel Content.fuel at h
  cases hp : s.point with
  | ended => rfl
  | requesting v point =>
    rw [hp] at h
    cases point <;> (dsimp only [RequestPoint.cost] at h; omega)
  | _ =>
    rw [hp] at h
    dsimp only at h
    omega

/-- Leaving `work` is always closer to the end. -/
theorem fuel_working (h : s.finished = false) : 4 < s.fuel := by
  unfold finished at h
  unfold fuel Content.fuel
  cases hp : s.point with
  | requesting v point =>
    cases point <;> (dsimp only [RequestPoint.cost]; split <;> omega)
  | finishLocking => rw [hp] at h; cases h
  | finishChecking => rw [hp] at h; cases h
  | unlocking => rw [hp] at h; cases h
  | finishing => rw [hp] at h; cases h
  | ended => rw [hp] at h; cases h
  | _ =>
    dsimp only
    omega

section Steps

variable {offered : List RemoteClipboardFileEntry}

theorem addSize_fuel (e : RemoteClipboardFileEntry) :
    (s.addSize e).fuel
      ≤ 20 * (s.entries.length - s.next - 1)
        + s.content.batch s.entries.length + 21 := by
  unfold addSize
  split
  · change 4 ≤ _
    omega
  · change 20 * (s.entries.length - (s.next + 1))
      + s.content.batch s.entries.length + 21 ≤ _
    omega

theorem begin_fuel (hp : s.point = .queued) (env : WorkEnv) :
    (s.begin env).fuel < s.fuel := by
  have hfail : 4 < s.fuel := fuel_working (by rw [finished, hp])
  unfold begin
  split
  · exact hfail
  · split
    · rw [fuel_at hp]
      exact Nat.lt_succ_self _
    · exact hfail
    · exact hfail
    · exact hfail

theorem size_fuel (hp : s.point = .sizing) (env : WorkEnv) :
    (s.size env).fuel < s.fuel := by
  have hfail : 4 < s.fuel := fuel_working (by rw [finished, hp])
  have hfuel : s.fuel = 20 * (s.entries.length - s.next)
      + s.content.batch s.entries.length + 21 := fuel_at hp
  unfold size
  split
  · split
    · change s.content.batch s.entries.length + 13 < _
      omega
    · exact hfail
    · exact hfail
  · rename_i e hsome
    have hlt := (List.getElem?_eq_some_iff.mp hsome).1
    split
    · exact hfail
    · split
      · change 6 + (20 * (s.entries.length - s.next - 1)
          + s.content.batch s.entries.length + 21) < _
        omega
      · have hadd := s.addSize_fuel e
        omega

theorem sized_fuel {bytes : List UInt8}
    (hsome : ∃ e, s.entries[s.next]? = some e) :
    (s.sized bytes).fuel
      ≤ 20 * (s.entries.length - s.next - 1)
        + s.content.batch s.entries.length + 21 := by
  obtain ⟨e, he⟩ := hsome
  unfold sized
  rw [he]
  dsimp only
  split
  · change 4 ≤ _
    omega
  · let e' : RemoteClipboardFileEntry :=
      { e with size := leNat bytes, sizeKnown := true }
    let s' : ReceiveTask := { s with entries := s.entries.set s.next e' }
    have hlen : s'.entries.length = s.entries.length := List.length_set
    have hadd := s'.addSize_fuel e'
    rw [hlen] at hadd
    exact hadd

variable {v : RdpClipboardFileRequest}

theorem take_fuel
    (hasks : v.sizeQuery = true → ∃ e, s.entries[s.next]? = some e) :
    (s.take v).fuel
      ≤ if v.sizeQuery then
          20 * (s.entries.length - s.next - 1)
            + s.content.batch s.entries.length + 21
        else s.content.batch (s.entries.length - s.next - 1)
          + 10 * (s.content.left - 1) + 16 := by
  unfold take
  dsimp only
  split
  · rename_i hquery
    exact sized_fuel (s := { s with responseData := [] }) (hasks hquery)
  · split
    · change 4 ≤ _
      omega
    · exact Nat.le_refl _

/-- The worker waits: its answer has neither come nor timed out. -/
def waits (s : ReceiveTask) (env : WorkEnv) : Bool :=
  match s.point with
  | .requesting _ .waiting =>
    !s.cancelled && !s.responseReady && !env.timedOut && !env.thrown
  | _ => false

theorem request_fuel {point : RequestPoint} (hp : s.point = .requesting v point)
    (env : WorkEnv)
    (hasks : v.sizeQuery = true → ∃ e, s.entries[s.next]? = some e)
    (hwait : s.waits env = false) (hthrown : env.thrown = false) :
    (s.request env v point).fuel < s.fuel := by
  have hfail : 4 < s.fuel := fuel_working (by rw [finished, hp])
  have hfuel := fuel_at hp
  cases point with
  | admitting =>
    unfold request
    dsimp only
    split
    · exact hfail
    · split
      · exact hfail
      · split
        · exact hfail
        · rw [hfuel]
          exact Nat.add_lt_add_right (by decide : 5 < 6) _
  | sendLocking =>
    rw [hfuel]
    exact Nat.add_lt_add_right (by decide : 4 < 5) _
  | sendChecking =>
    unfold request
    dsimp only
    split
    · rw [hfuel]
      exact Nat.add_lt_add_right (by decide : 2 < 4) _
    · rw [hfuel]
      exact Nat.add_lt_add_right (by decide : 3 < 4) _
  | sending =>
    rw [hfuel]
    exact Nat.add_lt_add_right (by decide : 2 < 3) _
  | sendLeaving sent =>
    unfold request
    dsimp only
    split
    · rw [hfuel]
      exact Nat.add_lt_add_right (by decide : 1 < 2) _
    · exact hfail
  | waiting =>
    unfold request
    dsimp only
    split
    · rename_i hidle
      split
      · exact hfail
      · rename_i htimed
        rw [waits, hp] at hwait
        simp [hidle, htimed, hthrown] at hwait
    · split
      · exact hfail
      · split
        · let s' : ReceiveTask := { s with
            pending := {}, log := s.log ++ [.cleared] }
          have htake := take_fuel (s := s') (v := v) hasks
          rw [hfuel]
          exact Nat.lt_of_le_of_lt htake (Nat.lt_add_of_pos_left
            (by decide))
        · exact hfail

theorem receiving_fuel (hp : s.point = .starting) :
    s.receiving.fuel < s.fuel := by
  unfold receiving
  split
  · exact fuel_working (by rw [finished, hp])
  · rw [fuel_at hp]
    exact Nat.lt_succ_self _

theorem enter_fuel (hp : s.point = .entering) (env : WorkEnv) :
    (s.enter env).fuel < s.fuel := by
  have hfail : 4 < s.fuel := fuel_working (by rw [finished, hp])
  unfold enter
  split
  · exact hfail
  · split
    · rw [fuel_at hp]
      exact Nat.lt_succ_self _
    · split
      · exact hfail
      · exact hfail

/-- The end of a turn of the loop over the files. -/
theorem push_fuel (e : RemoteClipboardFileEntry) :
    (s.push e).fuel
      = s.content.batch (s.entries.length - s.next - 1) + 12 := by
  change s.content.batch (s.entries.length - (s.next + 1)) + 12 = _
  rw [Nat.sub_sub]

theorem name_fuel (hp : s.point = .naming)
    (hpoint : s.content.PointHolds offered s.log .naming) (env : WorkEnv) :
    (s.name env).fuel < s.fuel := by
  obtain ⟨hfiling, htrans, hnext⟩ := hpoint
  have hfail : 4 < s.fuel := fuel_working (by rw [finished, hp])
  have hfuel : s.fuel
      = s.content.batch (s.entries.length - s.next) + 11 := fuel_at hp
  have hbatch := Content.batch_next hnext
  change s.content.batch (s.entries.length - s.next)
    = s.content.batch (s.entries.length - s.next - 1)
      + (10 * s.limit + 20) at hbatch
  change s.next < s.entries.length at hnext
  have he : s.entries[s.next]? = some s.entries[s.next] :=
    List.getElem?_eq_getElem hnext
  have hroom := hfiling.room he
  generalize s.entries[s.next] = e at he hroom
  change s.content.written + e.size ≤ s.limit at hroom
  unfold name
  rw [he]
  dsimp only
  split
  · split
    · exact hfail
    · have hpush := push_fuel (s := { s with
        status := { s.status with currentIndex := e.index } }) e
      change _ = s.content.batch (s.entries.length - s.next - 1) + 12
        at hpush
      refine Nat.lt_of_le_of_lt (Nat.le_of_eq hpush) ?_
      omega
  · split
    · let s' : ReceiveTask := { s with
        status := { s.status with currentIndex := e.index }
        offset := 0, partialFile := [], answers := [], point := .copying }
      have hleft : s'.content.left = e.size - 0 := Content.left_eq he
      change s.content.batch (s.entries.length - s.next - 1)
        + 10 * s'.content.left + 14 < _
      omega
    · exact hfail
    · exact hfail

theorem copy_fuel (hp : s.point = .copying)
    (hpoint : s.content.PointHolds offered s.log .copying) :
    s.copy.fuel < s.fuel := by
  obtain ⟨-, -, e, hfile⟩ := hpoint
  have he : s.entries[s.next]? = some e := hfile.current
  have hfail : 4 < s.fuel := fuel_working (by rw [finished, hp])
  have hfuel : s.fuel = s.content.batch (s.entries.length - s.next - 1)
      + 10 * s.content.left + 14 := fuel_at hp
  have hleft : s.content.left = e.size - s.offset := Content.left_eq he
  unfold copy
  rw [he]
  dsimp only
  split
  · exact hfail
  · split
    · change 6 + (s.content.batch (s.entries.length - s.next - 1)
        + 10 * (s.content.left - 1) + 16) < _
      omega
    · change s.content.batch (s.entries.length - s.next - 1) + 13 < _
      omega

theorem store_fuel {bytes : List UInt8} (hp : s.point = .budgeting v bytes)
    (hpoint : s.content.PointHolds offered s.log (.budgeting v bytes))
    (env : WorkEnv) : (s.store env v bytes).fuel < s.fuel := by
  obtain ⟨-, -, e, hfile, ⟨-, -, -, -, hlt⟩, hne, -, -⟩ := hpoint
  have he : s.entries[s.next]? = some e := hfile.current
  change s.offset < e.size at hlt
  have hfail : 4 < s.fuel := fuel_working (by rw [finished, hp])
  have hfuel : s.fuel = s.content.batch (s.entries.length - s.next - 1)
      + 10 * (s.content.left - 1) + 16 := fuel_at hp
  have hleft : s.content.left = e.size - s.offset := Content.left_eq he
  have hlen : 0 < bytes.length := List.length_pos_iff.mpr hne
  unfold store
  split
  · exact hfail
  · dsimp only
    split
    · let s' : ReceiveTask := { s with offset := s.offset + bytes.length }
      have hleft' : s'.content.left = e.size - (s.offset + bytes.length) :=
        Content.left_eq he
      change s.content.batch (s.entries.length - s.next - 1)
        + 10 * s'.content.left + 15 < _
      omega
    · exact hfail

theorem count_fuel {bytes : Nat} (hp : s.point = .counting bytes) :
    (s.count bytes).fuel < s.fuel := by
  rw [fuel_at hp]
  exact Nat.lt_succ_self _

theorem verify_fuel (hp : s.point = .verifying)
    (hpoint : s.content.PointHolds offered s.log .verifying)
    (env : WorkEnv) : (s.verify env).fuel < s.fuel := by
  obtain ⟨-, -, e, hfile, -⟩ := hpoint
  have he : s.entries[s.next]? = some e := hfile.current
  have hfail : 4 < s.fuel := fuel_working (by rw [finished, hp])
  have hfuel : s.fuel
      = s.content.batch (s.entries.length - s.next - 1) + 13 := fuel_at hp
  unfold verify
  rw [he]
  dsimp only
  split
  · exact hfail
  · split
    · exact hfail
    · split
      · exact hfail
      · rw [push_fuel, hfuel]
        exact Nat.lt_succ_self _

theorem finishing_fuel (hf : s.finished = true) (hp : s.point ≠ .ended)
    (env : WorkEnv) : (s.work env).fuel < s.fuel := by
  unfold finished at hf
  unfold work
  cases hpoint : s.point with
  | finishLocking =>
    rw [fuel_at hpoint]
    exact (by decide : 3 < 4)
  | finishChecking =>
    rw [fuel_at hpoint]
    dsimp only
    unfold finishCheck
    split <;> exact (by decide : 2 < 3)
  | unlocking =>
    rw [fuel_at hpoint]
    dsimp only
    unfold unlock
    dsimp only
    split
    · split <;> exact (by decide : 1 < 2)
    · exact (by decide : 1 < 2)
  | finishing =>
    rw [fuel_at hpoint]
    exact (by decide : 0 < 1)
  | ended => exact absurd hpoint hp
  | _ =>
    rw [hpoint] at hf
    cases hf

/-- A step of the worker that is not a wait brings the end closer. -/
theorem work_fuel (h : s.Good offered) (hp : s.point ≠ .ended)
    {env : WorkEnv} (hwait : s.waits env = false) :
    (s.work env).fuel < s.fuel := by
  by_cases hf : s.finished = true
  · exact finishing_fuel hf hp env
  have hfail : 4 < s.fuel := fuel_working (Bool.not_eq_true _ ▸ hf)
  have hthrow : ∀ s' : ReceiveTask, (env.thrown = false → s'.fuel < s.fuel) →
      (if env.thrown then s.throw else s').fuel < s.fuel := by
    intro s' hs'
    split
    · exact hfail
    · rename_i hthrown
      exact hs' (Bool.not_eq_true _ ▸ hthrown)
  have hpoint := h.point
  unfold finished at hf
  unfold work
  cases hat : s.point with
  | finishLocking => rw [hat] at hf; exact absurd rfl hf
  | finishChecking => rw [hat] at hf; exact absurd rfl hf
  | unlocking => rw [hat] at hf; exact absurd rfl hf
  | finishing => rw [hat] at hf; exact absurd rfl hf
  | ended => exact absurd hat hp
  | requesting v point =>
    rw [hat] at hpoint
    obtain ⟨_, hasks⟩ := hpoint
    have hsome : v.sizeQuery = true → ∃ e, s.entries[s.next]? = some e := by
      intro hquery
      rcases hasks with ⟨⟨_, e, he, _⟩, _⟩ | ⟨_, _, e, _, hrange⟩
      · exact ⟨e, he⟩
      · rw [hrange.1] at hquery
        cases hquery
    cases point with
    | sending =>
      dsimp only
      split
      · exact hfail
      · rename_i hthrown
        exact request_fuel hat env hsome hwait
          (Bool.not_eq_true _ ▸ hthrown)
    | _ => exact hthrow _ fun hthrown =>
      request_fuel hat env hsome hwait hthrown
  | queued => exact hthrow _ fun _ => begin_fuel hat env
  | sizing => exact hthrow _ fun _ => size_fuel hat env
  | starting => exact hthrow _ fun _ => receiving_fuel hat
  | entering => exact hthrow _ fun _ => enter_fuel hat env
  | naming =>
    rw [hat] at hpoint
    exact hthrow _ fun _ => name_fuel hat hpoint env
  | copying =>
    rw [hat] at hpoint
    exact hthrow _ fun _ => copy_fuel hat hpoint
  | budgeting v bytes =>
    rw [hat] at hpoint
    exact hthrow _ fun _ => store_fuel hat hpoint env
  | counting bytes => exact hthrow _ fun _ => count_fuel hat
  | verifying =>
    rw [hat] at hpoint
    exact hthrow _ fun _ => verify_fuel hat hpoint env

/-- A wait changes nothing. -/
theorem work_waits {env : WorkEnv} (h : s.waits env = true) :
    s.work env = s := by
  unfold waits at h
  split at h
  · rename_i v hp
    simp only [Bool.and_eq_true, Bool.not_eq_true'] at h
    obtain ⟨⟨⟨hcancelled, hready⟩, htimed⟩, hthrown⟩ := h
    unfold work
    rw [hp]
    simp [request, hcancelled, hready, htimed, hthrown]
  · cases h

end Steps

-- ================================ the runs

/-- Whether an operation is a step of the worker that is not a wait. -/
def turn (s : ReceiveTask) : ReceiveOp → Nat
  | .work env => if s.waits env then 0 else 1
  | _ => 0

/-- The steps of the worker in a run, waits apart. -/
def turns : ReceiveTask → List ReceiveOp → Nat
  | _, [] => 0
  | s, op :: ops => s.turn op + (s.step op).turns ops

theorem cancel_fuel (s : ReceiveTask) (reason : String) :
    (s.cancel reason).fuel = s.fuel := by
  unfold cancel
  split
  · rfl
  · split <;> rfl

theorem step_fuel {offered : List RemoteClipboardFileEntry} (h : s.Good offered)
    (op : ReceiveOp) :
    (s.step op).fuel + s.turn op ≤ max s.fuel (s.turn op) := by
  cases op with
  | work env =>
    change (s.work env).fuel + (if s.waits env then 0 else 1) ≤ _
    cases hwait : s.waits env with
    | true =>
      rw [work_waits hwait]
      exact Nat.le_max_left _ _
    | false =>
      by_cases hp : s.point = .ended
      · have hstays : s.work env = s := by rw [work, hp]
        have hfuel : s.fuel = 0 := fuel_at hp
        rw [hstays, hfuel, Nat.zero_add, turn, hwait]
        exact Nat.le_max_right _ _
      · exact (work_fuel h hp hwait).trans_le (Nat.le_max_left _ _)
  | response streamId success data =>
    change (s.response streamId success data).fuel ≤ max s.fuel 0
    rw [Nat.max_zero]
    unfold response
    split <;> exact Nat.le_refl s.fuel
  | cancel reason =>
    change (s.cancel reason).fuel ≤ max s.fuel 0
    rw [cancel_fuel]
    exact Nat.le_max_left _ _
  | offerChanged sequence =>
    change (s.offerChanged sequence).fuel ≤ max s.fuel 0
    rw [Nat.max_zero]
    unfold offerChanged
    split <;> exact Nat.le_refl s.fuel
  | offerCancel =>
    change s.offerCancel.fuel ≤ max s.fuel 0
    rw [Nat.max_zero]
    unfold offerCancel
    split
    · exact Nat.le_refl _
    · dsimp only
      rw [cancel_fuel]
      exact Nat.le_refl s.fuel

/-- The worker ends: after `fuel` steps that are not waits it is done. -/
theorem exec_ended {offered : List RemoteClipboardFileEntry}
    (h : s.Good offered) {ops : List ReceiveOp}
    (hturns : s.fuel ≤ s.turns ops) :
    (exec ReceiveTask.step s ops).point = .ended := by
  induction ops generalizing s with
  | nil => exact ended_of_fuel (Nat.le_zero.mp hturns)
  | cons op ops ih =>
    apply ih (h.step op)
    have hstep := step_fuel h op
    rw [turns] at hturns
    rcases Nat.le_total s.fuel (s.turn op) with hle | hle
    · rw [Nat.max_eq_right hle] at hstep
      omega
    · rw [Nat.max_eq_left hle] at hstep
      omega

theorem addSize_maxTotalBytes (s : ReceiveTask)
    (e : RemoteClipboardFileEntry) :
    (s.addSize e).maxTotalBytes = s.maxTotalBytes := by
  unfold addSize
  split <;> rfl

theorem request_maxTotalBytes (s : ReceiveTask) (env : WorkEnv)
    (v : RdpClipboardFileRequest) (point : RequestPoint) :
    (s.request env v point).maxTotalBytes = s.maxTotalBytes := by
  have htake : ∀ s' : ReceiveTask,
      (s'.take v).maxTotalBytes = s'.maxTotalBytes := by
    intro s'
    unfold take sized
    dsimp only
    split
    · split
      · rfl
      · split
        · rfl
        · exact addSize_maxTotalBytes _ _
    · split <;> rfl
  cases point with
  | waiting =>
    unfold request
    dsimp only
    split
    · split <;> rfl
    · split
      · rfl
      · split
        · exact htake _
        · rfl
  | _ =>
    unfold request
    dsimp only
    repeat' split
    all_goals rfl

theorem work_maxTotalBytes (s : ReceiveTask) (env : WorkEnv) :
    (s.work env).maxTotalBytes = s.maxTotalBytes := by
  have hthrow : ∀ s' : ReceiveTask, s'.maxTotalBytes = s.maxTotalBytes →
      (if env.thrown then s.throw else s').maxTotalBytes
        = s.maxTotalBytes := by
    intro s' hs'
    split
    · rfl
    · exact hs'
  unfold work
  cases s.point with
  | finishChecking =>
    dsimp only
    unfold finishCheck
    split <;> rfl
  | unlocking =>
    dsimp only
    unfold unlock
    dsimp only
    split
    · split <;> rfl
    · rfl
  | requesting v point =>
    cases point with
    | sending =>
      dsimp only
      split
      · rfl
      · exact s.request_maxTotalBytes env v .sending
    | _ => exact hthrow _ (s.request_maxTotalBytes env v _)
  | queued =>
    refine hthrow (s.begin env) ?_
    unfold begin
    repeat' split
    all_goals rfl
  | sizing =>
    refine hthrow (s.size env) ?_
    unfold size
    split
    · split <;> rfl
    · split
      · rfl
      · split
        · rfl
        · exact s.addSize_maxTotalBytes _
  | starting =>
    refine hthrow s.receiving ?_
    unfold receiving
    split <;> rfl
  | entering =>
    refine hthrow (s.enter env) ?_
    unfold enter
    repeat' split
    all_goals rfl
  | naming =>
    refine hthrow (s.name env) ?_
    unfold name
    repeat' split
    all_goals rfl
  | copying =>
    refine hthrow (s.copy) ?_
    unfold copy
    repeat' split
    all_goals rfl
  | budgeting value bytes =>
    refine hthrow (s.store env value bytes) ?_
    unfold store
    dsimp only
    repeat' split
    all_goals rfl
  | counting bytes => exact hthrow _ rfl
  | verifying =>
    refine hthrow (s.verify env) ?_
    unfold verify
    split
    · rfl
    · dsimp only
      repeat' split
      all_goals rfl
  | _ => rfl

theorem step_maxTotalBytes (s : ReceiveTask) (op : ReceiveOp) :
    (s.step op).maxTotalBytes = s.maxTotalBytes := by
  cases op with
  | work env => exact s.work_maxTotalBytes env
  | response streamId success data =>
    change (s.response streamId success data).maxTotalBytes = _
    unfold response
    split <;> rfl
  | cancel reason =>
    change (s.cancel reason).maxTotalBytes = _
    unfold cancel
    repeat' split
    all_goals rfl
  | offerChanged sequence =>
    change (s.offerChanged sequence).maxTotalBytes = _
    unfold offerChanged
    split <;> rfl
  | offerCancel =>
    change s.offerCancel.maxTotalBytes = _
    unfold offerCancel cancel
    dsimp only
    repeat' split
    all_goals rfl

section Outcome

variable {maxTotalBytes taskId : Nat} {offer : RemoteClipboardFileOffer}
  {selected : List Nat} {clipDataId : Nat} {hasUnlocker : Bool}
  {taken : Nat} {s₀ : ReceiveTask}

/-- A run of a task started on a selection of an offer. A completed one
has written each selected file, in full, from the answers to requests
that follow one another; the transfer stays within the budget; and the
worker ends after a number of steps fixed at the start. -/
theorem received
    (h : start maxTotalBytes taskId offer selected clipDataId hasUnlocker
      taken = some s₀) (ops : List ReceiveOp) :
    let s := exec ReceiveTask.step s₀ ops
    (s.status.phase = .completed →
      List.Forall₂ (SizedFrom s.log)
        (offer.entries.filter (included offer selected)) s.entries
      ∧ s.receipts.map (·.entry) = s.entries.filter (fun e => !e.directory)
      ∧ (∀ r ∈ s.receipts, Written s.log r)
      ∧ s.files = s.receipts.map (fun r => (r.entry.relativeName, r.content))
      ∧ s.status.transferredBytes
        = (s.receipts.map (·.content.length)).sum)
    ∧ s.status.transferredBytes ≤ min maxTotalBytes kMaxTotalBytes
    ∧ (s₀.fuel ≤ s₀.turns ops → s.point = .ended) := by
  have hstart := start_good h
  have hgood : (exec ReceiveTask.step s₀ ops).Good _ :=
    @exec_invariant _ _ ReceiveTask.step (Good _)
      (fun _ op hs => hs.step op) _ ops hstart
  have hmax : (exec ReceiveTask.step s₀ ops).maxTotalBytes
      = maxTotalBytes := by
    have h₀ : s₀.maxTotalBytes = maxTotalBytes := by
      unfold start at h
      dsimp only at h
      repeat' split at h
      all_goals cases h
      rfl
    exact @exec_invariant _ _ ReceiveTask.step
      (fun s => s.maxTotalBytes = maxTotalBytes)
      (fun s op hs => (s.step_maxTotalBytes op).trans hs) _ ops h₀
  intro s
  refine ⟨?_, ?_, exec_ended hstart⟩
  · intro hphase
    obtain ⟨hfiling, hall, htransferred⟩ :=
      hgood.complete (hgood.completed hphase)
    refine ⟨hfiling.sized, ?_, hfiling.written, hfiling.files,
      htransferred⟩
    have hreceipts := hfiling.receipts
    rw [hall, List.take_length] at hreceipts
    exact hreceipts
  · have hlimited := hgood.limited
    rw [limit, hmax] at hlimited
    exact hlimited

/-- An offer of one file, of three bytes. -/
def oneFile : RemoteClipboardFileOffer where
  sequence := 7
  state := .ready
  streamSupported := true
  entries := [{ relativeName := [97], sizeKnown := true, size := 3 }]

/-- The steps up to a request, two bytes, and the last one. -/
def twoPieces : List ReceiveOp :=
  List.replicate 11 (.work {}) ++ [.response 1 true [1, 2]]
    ++ List.replicate 10 (.work {}) ++ [.response 2 true [3]]
    ++ List.replicate 30 (.work {})

theorem received_pieces :
    ∃ s₀, start 1000 1 oneFile [0] 9 true 0 = some s₀
      ∧ (exec ReceiveTask.step s₀ twoPieces).files = [([97], [1, 2, 3])]
      ∧ (∀ r ∈ (exec ReceiveTask.step s₀ twoPieces).receipts,
        Written (exec ReceiveTask.step s₀ twoPieces).log r)
      ∧ (exec ReceiveTask.step s₀ twoPieces).status.transferredBytes
        ≤ 1000 := by
  refine ⟨_, rfl, by decide +kernel, ?_⟩
  have h := @received 1000 1 oneFile [0] 9 true 0 _ rfl twoPieces
  exact ⟨(h.1 (by decide +kernel)).2.2.1, h.2.1⟩

end Outcome

end ReceiveTask

end RemoteDesk.Clipboard
