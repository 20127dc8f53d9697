/-
The registry of the transfer jobs (`TransferRegistry`, `file_transfer.rs`).

# The registry

A job is made under the id its caller gives. The registry keeps its record until
the caller releases it, which it can when the job is terminal; a full registry
refuses to make another job, it does not make room.

# Jobs

The jobs that were made stand in a list, and the registry has their places in it:
a worker goes on with its job also where the record is gone. The keys of the
`BTreeMap` are distinct by construction.
-/
import Mathlib.Data.List.Nodup
import RemoteDesk.Files.TransferJob

namespace RemoteDesk.Files

open Lib

-- ================================ registry

structure TransferRegistry where
  jobs : List (Nat × Nat) := []
  latest : Nat := 0
  keys : (jobs.map Prod.fst).Nodup := by simp

inductive InsertError
  | alreadyExists
  | recordsFull
  | tooManyActive
deriving DecidableEq, Repr

def InsertError.text : InsertError → String
  | .alreadyExists => "transfer id already used"
  | .recordsFull => "release completed transfer records first"
  | .tooManyActive => "too many active transfers"

/-- The job at a place is not terminal. -/
def running (made : List TransferStatus) (place : Nat) : Bool :=
  made[place]?.any fun status => status.state = .running

namespace TransferRegistry

def maxRecords : Nat := 256
def maxActive : Nat := 4

/-- `insert`, of the job at `place`. -/
def insert (registry : TransferRegistry) (made : List TransferStatus)
    (id place : Nat) : Except InsertError TransferRegistry :=
  if hused : id = 0 ∨ id ∈ registry.jobs.map Prod.fst then .error .alreadyExists
  else if registry.jobs.length ≥ maxRecords then .error .recordsFull
  else if (registry.jobs.countP fun job => running made job.2) ≥ maxActive then
    .error .tooManyActive
  else
    .ok
      { jobs := registry.jobs ++ [(id, place)]
        latest := id
        keys := by
          rw [List.map_append]
          refine List.Nodup.append registry.keys (List.nodup_singleton _) ?_
          rw [List.map_singleton, List.disjoint_singleton]
          exact fun hmem => hused (.inr hmem) }

/-- `get`: id 0 is the job that was made last. -/
def get (registry : TransferRegistry) (id : Nat) : Option Nat :=
  (registry.jobs.find? fun job =>
    job.1 = if id = 0 then registry.latest else id).map Prod.snd

/-- `release`, and whether there was a terminal job to release. -/
def release (registry : TransferRegistry) (made : List TransferStatus) (id : Nat) :
    TransferRegistry × Bool :=
  if registry.jobs.any fun job => job.1 = id && !running made job.2 then
    ({ registry with
      jobs := registry.jobs.filter fun job => job.1 ≠ id
      keys := (List.filter_sublist.map Prod.fst).nodup registry.keys }, true)
  else (registry, false)

end TransferRegistry

-- ==================================== runs

structure TransferJobs where
  registry : TransferRegistry := {}
  made : List TransferStatus := []

inductive RegistryCall
  | insert (id size : Nat)
  | progress (place bytes : Nat)
  /-- The result is the one that `check` was asked about. -/
  | finish (place : Nat) (result : Except IoError Unit)
  | release (id : Nat)

namespace TransferJobs

def step (s : TransferJobs) : RegistryCall → TransferJobs
  | .insert id size =>
    match s.registry.insert s.made id s.made.length with
    | .ok registry =>
      { registry
        made := s.made ++ [{ transferId := id, totalBytes := size }] }
    | .error _ => s
  | .progress place bytes =>
    { s with made := s.made.modify place fun status => status.progress bytes }
  | .finish place result =>
    { s with
      made := s.made.modify place fun status =>
        if status.state = .running then status.decide result else status }
  | .release id => { s with registry := (s.registry.release s.made id).1 }

/-- The places of the jobs that are not terminal. -/
def active (s : TransferJobs) : List Nat :=
  (List.range s.made.length).filter (running s.made)

/-- The limits hold, the ids of the records are distinct, and a job that runs is
found by its id. -/
structure Bounded (s : TransferJobs) : Prop where
  ids : (s.registry.jobs.map Prod.fst).Nodup
  active : s.active.length ≤ TransferRegistry.maxActive
  records : s.registry.jobs.length ≤ TransferRegistry.maxRecords
  findable : ∀ place status, s.made[place]? = some status →
    status.state = .running → status.transferId ≠ 0
      ∧ s.registry.get status.transferId = some place

/-- A record goes away only where it is released, with its job terminal. -/
def RemovesTerminal (s : TransferJobs) (call : RegistryCall) : Prop :=
  ∀ job ∈ s.registry.jobs, job ∉ (s.step call).registry.jobs →
    call = .release job.1 ∧ running s.made job.2 = false

-- =============================== invariant

/-- What every call keeps. -/
structure Registered (s : TransferJobs) : Prop where
  places : ∀ job ∈ s.registry.jobs, job.1 ≠ 0
    ∧ ∃ status, s.made[job.2]? = some status ∧ status.transferId = job.1
  kept : ∀ place status, s.made[place]? = some status →
    status.state = .running → (status.transferId, place) ∈ s.registry.jobs
  records : s.registry.jobs.length ≤ TransferRegistry.maxRecords
  active : (s.registry.jobs.countP fun job => running s.made job.2)
    ≤ TransferRegistry.maxActive

/-- The places of two records of one id are one. -/
theorem place_unique (registry : TransferRegistry) {job job' : Nat × Nat}
    (hjob : job ∈ registry.jobs) (hjob' : job' ∈ registry.jobs)
    (hid : job'.1 = job.1) : job' = job :=
  List.inj_on_of_nodup_map registry.keys hjob' hjob hid

theorem running_iff {made : List TransferStatus} {place : Nat} :
    running made place = true
      ↔ ∃ status, made[place]? = some status ∧ status.state = .running := by
  rw [running, Option.any_eq_true]
  constructor
  · rintro ⟨status, hstatus, hrunning⟩
    exact ⟨status, hstatus, of_decide_eq_true hrunning⟩
  · rintro ⟨status, hstatus, hrunning⟩
    exact ⟨status, hstatus, decide_eq_true hrunning⟩

variable {s : TransferJobs}

/-- A change of one job that starts none and keeps its id. -/
theorem Registered.modify (h : s.Registered) (place : Nat)
    {f : TransferStatus → TransferStatus}
    (hid : ∀ status, (f status).transferId = status.transferId)
    (hrunning : ∀ status, (f status).state = .running → status.state = .running) :
    Registered { s with made := s.made.modify place f } := by
  have hold : ∀ (place' : Nat) (status' : TransferStatus),
      (s.made.modify place f)[place']? = some status' →
      ∃ status : TransferStatus, s.made[place']? = some status
        ∧ status'.transferId = status.transferId
        ∧ (status'.state = .running → status.state = .running) := by
    intro place' status' hstatus
    rw [List.getElem?_modify] at hstatus
    obtain ⟨status, hat, rfl⟩ := Option.map_eq_some_iff.1 hstatus
    refine ⟨status, hat, ?_⟩
    split
    · exact ⟨hid status, hrunning status⟩
    · exact ⟨rfl, id⟩
  refine
    { places := fun job hjob => ?_
      kept := fun place' status' hstatus hstate => ?_
      records := h.records
      active := ?_ }
  · obtain ⟨hnonzero, status, hat, htransfer⟩ := h.places job hjob
    refine ⟨hnonzero, if place = job.2 then f status else status, ?_, ?_⟩
    · show (s.made.modify place f)[job.2]? = _
      rw [List.getElem?_modify, hat]
      split <;> rfl
    · split
      · exact (hid status).trans htransfer
      · exact htransfer
  · obtain ⟨status, hat, htransfer, hwas⟩ := hold place' status' hstatus
    rw [htransfer]
    exact h.kept place' status hat (hwas hstate)
  · refine Nat.le_trans (List.countP_mono_left fun job _ hjob => ?_) h.active
    obtain ⟨status', hat', hstate⟩ := running_iff.1 hjob
    obtain ⟨status, hat, -, hwas⟩ := hold job.2 status' hat'
    exact running_iff.2 ⟨status, hat, hwas hstate⟩

theorem Registered.insert (h : s.Registered) (id size : Nat) :
    (s.step (.insert id size)).Registered := by
  rw [step]
  rcases hinsert : s.registry.insert s.made id s.made.length with _ | registry
  · exact h
  rw [TransferRegistry.insert] at hinsert
  split at hinsert
  · cases hinsert
  rename_i hfresh
  split at hinsert
  · cases hinsert
  rename_i hrecords
  split at hinsert
  · cases hinsert
  rename_i hactive
  cases hinsert
  rw [not_or] at hfresh
  have hstill : ∀ job ∈ s.registry.jobs,
      (s.made ++ [{ transferId := id, totalBytes := size }])[job.2]?
        = s.made[job.2]? := by
    intro job hjob
    obtain ⟨-, status, hat, -⟩ := h.places job hjob
    exact List.getElem?_append_left (List.getElem?_eq_some_iff.1 hat).1
  refine
    { places := fun job hjob => ?_
      kept := fun place status hat hstate => ?_
      records := ?_
      active := ?_ }
  · rcases List.mem_append.1 hjob with hjob | hjob
    · obtain ⟨hnonzero, status, hat, htransfer⟩ := h.places job hjob
      exact ⟨hnonzero, status, (hstill job hjob).trans hat, htransfer⟩
    · rw [List.mem_singleton] at hjob
      rw [hjob]
      exact ⟨hfresh.1, _, List.getElem?_concat_length, rfl⟩
  · rcases Nat.lt_or_ge place s.made.length with hplace | hplace
    · have hat' : s.made[place]? = some status :=
        (List.getElem?_append_left hplace).symm.trans hat
      exact List.mem_append_left _ (h.kept place status hat' hstate)
    · have hlast : (s.made ++ [{ transferId := id, totalBytes := size }])[place]?
          = some status := hat
      rw [List.getElem?_append_right hplace] at hlast
      obtain ⟨hzero, hnew⟩ := List.getElem?_eq_some_iff.1 hlast
      rw [List.length_singleton] at hzero
      have heq : place = s.made.length := by omega
      rw [List.getElem_singleton] at hnew
      rw [← hnew, heq]
      exact List.mem_append_right _ (List.mem_singleton_self _)
  · show (s.registry.jobs ++ [(id, s.made.length)]).length ≤ _
    rw [List.length_append, List.length_singleton]
    omega
  · show ((s.registry.jobs ++ [(id, s.made.length)]).countP fun job =>
        running (s.made ++ [{ transferId := id, totalBytes := size }]) job.2) ≤ _
    have hsame : (s.registry.jobs.countP fun job =>
        running (s.made ++ [{ transferId := id, totalBytes := size }]) job.2)
          = s.registry.jobs.countP fun job => running s.made job.2 := by
      apply List.countP_congr
      intro job hjob
      rw [running, running, hstill job hjob]
    rw [List.countP_append, hsame]
    have hone := List.countP_le_length
      (p := fun job : Nat × Nat =>
        running (s.made ++ [{ transferId := id, totalBytes := size }]) job.2)
      (l := [(id, s.made.length)])
    rw [List.length_singleton] at hone
    omega

theorem Registered.release (h : s.Registered) (id : Nat) :
    (s.step (.release id)).Registered := by
  rw [step, TransferRegistry.release]
  split
  · rename_i hreleases
    obtain ⟨terminal, hmem, hterminal⟩ := List.any_eq_true.1 hreleases
    rw [Bool.and_eq_true, Bool.not_eq_true', decide_eq_true_eq] at hterminal
    refine
      { places := fun job hjob => h.places job (List.mem_of_mem_filter hjob)
        kept := fun place status hat hstate => ?_
        records := Nat.le_trans (List.length_filter_le _ _) h.records
        active := Nat.le_trans (List.filter_sublist.countP_le) h.active }
    have hkept := h.kept place status hat hstate
    refine List.mem_filter.2 ⟨hkept, decide_eq_true fun hid => ?_⟩
    have hsame := place_unique s.registry hkept hmem (hterminal.1.trans hid.symm)
    have hruns : running s.made terminal.2 = true := by
      rw [hsame]
      exact running_iff.2 ⟨status, hat, hstate⟩
    rw [hruns] at hterminal
    exact Bool.noConfusion hterminal.2
  · exact h

theorem Registered.step (h : s.Registered) (call : RegistryCall) :
    (s.step call).Registered := by
  cases call with
  | insert id size => exact h.insert id size
  | progress place bytes =>
    apply h.modify place
    · intro status
      rw [TransferStatus.progress]
      split <;> rfl
    · intro status
      rw [TransferStatus.progress]
      split
      · exact fun hstate => hstate
      · exact fun hstate => hstate
  | finish place result =>
    apply h.modify place
    · intro status
      split
      · cases result <;> rfl
      · rfl
    · intro status hstate
      split at hstate
      · assumption
      · exact hstate
  | release id => exact h.release id

/-- What the invariant says of a state. -/
theorem Registered.bounded (h : s.Registered) : s.Bounded where
  ids := s.registry.keys
  records := h.records
  active := by
    have hsubset : s.active
        ⊆ (s.registry.jobs.filter fun job => running s.made job.2).map Prod.snd := by
      intro place hplace
      have hruns := (List.mem_filter.1 hplace).2
      obtain ⟨status, hat, hstate⟩ := running_iff.1 hruns
      exact List.mem_map.2 ⟨_, List.mem_filter.2 ⟨h.kept place status hat hstate,
        hruns⟩, rfl⟩
    have hnodup : s.active.Nodup := List.nodup_range.filter _
    calc s.active.length
        ≤ ((s.registry.jobs.filter fun job => running s.made job.2).map
            Prod.snd).length := (hnodup.subperm hsubset).length_le
      _ = s.registry.jobs.countP fun job => running s.made job.2 := by
          rw [List.length_map, List.countP_eq_length_filter]
      _ ≤ TransferRegistry.maxActive := h.active
  findable place status hat hstate := by
    have hkept := h.kept place status hat hstate
    have hnonzero : status.transferId ≠ 0 := (h.places _ hkept).1
    refine ⟨hnonzero, ?_⟩
    rw [TransferRegistry.get, if_neg hnonzero]
    rcases hfind : s.registry.jobs.find? fun job => job.1 = status.transferId
      with _ | job
    · have hnone := List.find?_eq_none.1 hfind _ hkept
      exact absurd (decide_eq_true rfl) hnone
    · have hid : job.1 = status.transferId := by
        have hsome := List.find?_some hfind
        exact of_decide_eq_true hsome
      rw [hfind, place_unique s.registry hkept (List.mem_of_find?_eq_some hfind) hid]
      rfl

theorem step_removes (s : TransferJobs) (call : RegistryCall) :
    s.RemovesTerminal call := by
  intro job hjob hgone
  cases call with
  | insert id size =>
    rw [step] at hgone
    rcases hinsert : s.registry.insert s.made id s.made.length with _ | registry
    · rw [hinsert] at hgone
      exact absurd hjob hgone
    · rw [hinsert] at hgone
      rw [TransferRegistry.insert] at hinsert
      split at hinsert
      · cases hinsert
      split at hinsert
      · cases hinsert
      split at hinsert
      · cases hinsert
      cases hinsert
      exact absurd (List.mem_append_left _ hjob) hgone
  | progress place bytes => exact absurd hjob hgone
  | finish place result => exact absurd hjob hgone
  | release id =>
    rw [step, TransferRegistry.release] at hgone
    split at hgone
    · rename_i hreleases
      obtain ⟨terminal, hmem, hterminal⟩ := List.any_eq_true.1 hreleases
      rw [Bool.and_eq_true, Bool.not_eq_true', decide_eq_true_eq] at hterminal
      have hid : job.1 = id := by
        by_contra hother
        exact hgone (List.mem_filter.2 ⟨hjob, decide_eq_true hother⟩)
      have hsame := place_unique s.registry hmem hjob (hid.trans hterminal.1.symm)
      rw [hid, hsame]
      exact ⟨rfl, hterminal.2⟩
    · exact absurd hjob hgone

/-- In every run the limits hold, the ids of the records are distinct, a job that
runs is found by its id, and only a terminal job is removed. -/
theorem registry_bounded (calls : List RegistryCall) :
    (exec step {} calls).Bounded
      ∧ ∀ call, (exec step {} calls).RemovesTerminal call := by
  have hregistered : (exec step {} calls).Registered :=
    @exec_invariant _ _ step Registered (fun _ call h => h.step call) {} calls
      { places := fun _ hjob => absurd hjob List.not_mem_nil
        kept := fun place status hat _ => by cases hat
        records := Nat.zero_le _
        active := Nat.zero_le _ }
  exact ⟨hregistered.bounded, step_removes _⟩

/-- A job is made, done and released, and another is made under its id. -/
def idAgain : List RegistryCall :=
  [.insert 1 0, .finish 0 (.ok ()), .release 1, .insert 1 0]

theorem not_ids_distinct :
    ¬ ∀ calls, ((exec step {} calls).made.map (·.transferId)).Nodup := by
  intro h
  have hids : (exec step {} idAgain).made.map (·.transferId) = [1, 1] := by
    decide +kernel
  have hnodup := h idAgain
  rw [hids] at hnodup
  exact absurd hnodup (by decide)

end TransferJobs

end RemoteDesk.Files
