/-
The durable list of transfer tasks (services/SshSftpTaskPolicy.ets).

`upsertSshSftpTask` replaces the record of a task or adds one, sorts by
falling sequence and cuts the list. Whatever the order in which updates
arrive, the list stays small, sorted and free of repeated tasks
(`listed_run`); a record gives way only to a newer one (`upsert_kept`), so the
sequence of a task does not fall while the task stays (`sequence_le_run`).

An offset of `-1` is unknown, and an unknown one may follow a known one: of
two offsets that are both known the later is not the smaller.

Numbers are the finite ones of a script, of which only the order is used.
-/
import RemoteDesk.Lib.Runs

namespace RemoteDesk.Sftp

open Lib

/-- The fields of a task record that its list is ordered by. -/
structure SshSftpTaskRecord (D : Type) where
  taskId : String
  totalBytes : D
  verifiedOffset : D
  sequence : D
  updatedAt : D
  deriving DecidableEq

def MAX_TASKS : Nat := 64

variable {D : Type} [LinearOrder D] [Zero D]

def isNewerSshSftpTaskUpdate (current next : SshSftpTaskRecord D) : Bool :=
  if next.sequence ≠ current.sequence then
    current.sequence < next.sequence
  else current.updatedAt < next.updatedAt

def isMonotonicSshSftpTaskProgress (current next : SshSftpTaskRecord D) :
    Bool :=
  if 0 ≤ current.verifiedOffset ∧ 0 ≤ next.verifiedOffset
      ∧ next.verifiedOffset < current.verifiedOffset then false
  else if 0 ≤ next.totalBytes ∧ next.totalBytes < next.verifiedOffset then false
  else true

/-- The record of a task after an update, for the task of the update and for
any other. -/
def replaced (next current : SshSftpTaskRecord D) : SshSftpTaskRecord D :=
  if current.taskId ≠ next.taskId then current
  else if isNewerSshSftpTaskUpdate current next
      && isMonotonicSshSftpTaskProgress current next then next
  else current

/-- The records after an update, before they are sorted. -/
def placed (records : List (SshSftpTaskRecord D))
    (next : SshSftpTaskRecord D) : List (SshSftpTaskRecord D) :=
  let result := records.map (replaced next)
  if records.any (fun current => current.taskId = next.taskId) then result
  else result ++ [next]

/-- The sort of a script is stable. -/
def upsertSshSftpTask (records : List (SshSftpTaskRecord D))
    (next : SshSftpTaskRecord D) : List (SshSftpTaskRecord D) :=
  ((placed records next).insertionSort
    fun a b => b.sequence ≤ a.sequence).take MAX_TASKS

-- ============================= one update

/-- The tasks of a list. -/
def taskIds (records : List (SshSftpTaskRecord D)) : List String :=
  records.map SshSftpTaskRecord.taskId

/-- What may take the place of a record. -/
structure Replaces (current next : SshSftpTaskRecord D) : Prop where
  newer : current.sequence < next.sequence
    ∨ current.sequence = next.sequence ∧ current.updatedAt < next.updatedAt
  offset : 0 ≤ current.verifiedOffset → 0 ≤ next.verifiedOffset →
    current.verifiedOffset ≤ next.verifiedOffset

@[simp] theorem taskId_replaced (next current : SshSftpTaskRecord D) :
    (replaced next current).taskId = current.taskId := by
  unfold replaced
  by_cases hid : current.taskId = next.taskId
  · rw [if_neg (not_not.mpr hid)]
    split
    · exact hid.symm
    · rfl
  · rw [if_pos hid]

theorem replaced_cases (next current : SshSftpTaskRecord D) :
    replaced next current = current
      ∨ replaced next current = next ∧ Replaces current next := by
  unfold replaced
  split
  · exact .inl rfl
  · split
    · rename_i hok
      rw [Bool.and_eq_true] at hok
      obtain ⟨hnewer, hmonotonic⟩ := hok
      refine .inr ⟨rfl, ?_, ?_⟩
      · unfold isNewerSshSftpTaskUpdate at hnewer
        by_cases hsequence : next.sequence = current.sequence
        · rw [if_neg (not_not.mpr hsequence)] at hnewer
          exact .inr ⟨hsequence.symm, of_decide_eq_true hnewer⟩
        · rw [if_pos hsequence] at hnewer
          exact .inl (of_decide_eq_true hnewer)
      · intro hcurrent hnext
        unfold isMonotonicSshSftpTaskProgress at hmonotonic
        by_contra hlt
        rw [if_pos ⟨hcurrent, hnext, not_le.mp hlt⟩] at hmonotonic
        cases hmonotonic
    · exact .inl rfl

theorem placed_cases (records : List (SshSftpTaskRecord D))
    (next : SshSftpTaskRecord D) :
    placed records next = records.map (replaced next)
      ∨ next.taskId ∉ taskIds records
        ∧ placed records next = records.map (replaced next) ++ [next] := by
  unfold placed
  dsimp only
  split
  · exact .inl rfl
  · rename_i hnone
    refine .inr ⟨?_, rfl⟩
    simpa [taskIds] using hnone

variable {records : List (SshSftpTaskRecord D)}

theorem nodup_placed (h : (taskIds records).Nodup)
    (next : SshSftpTaskRecord D) : (taskIds (placed records next)).Nodup := by
  have hmap : taskIds (records.map (replaced next)) = taskIds records := by
    simp [taskIds]
  rcases placed_cases records next with heq | ⟨hnew, heq⟩
  · rwa [heq, hmap]
  · rw [heq, taskIds, List.map_append, ← taskIds, hmap, List.map_singleton,
      List.nodup_append]
    refine ⟨h, List.nodup_singleton _, ?_⟩
    intro id hid other hother heq
    rw [List.mem_singleton.mp hother] at heq
    exact hnew (heq ▸ hid)

-- ==================================== runs

/-- A list as it is stored. -/
structure Listed (records : List (SshSftpTaskRecord D)) : Prop where
  distinct : (taskIds records).Nodup
  few : records.length ≤ MAX_TASKS
  sorted : records.Pairwise fun a b => b.sequence ≤ a.sequence

theorem Listed.upsert (h : Listed records) (next : SshSftpTaskRecord D) :
    Listed (upsertSshSftpTask records next) := by
  let falls (a b : SshSftpTaskRecord D) : Prop := b.sequence ≤ a.sequence
  have htotal : Std.Total falls :=
    ⟨fun a b => le_total b.sequence a.sequence⟩
  have htrans : IsTrans (SshSftpTaskRecord D) falls :=
    ⟨fun _ _ _ hab hbc => le_trans hbc hab⟩
  have hperm := (List.perm_insertionSort falls (placed records next)).map
    SshSftpTaskRecord.taskId
  have hcut := List.take_sublist MAX_TASKS
    ((placed records next).insertionSort falls)
  refine ⟨?_, List.length_take_le _ _, ?_⟩
  · exact (hperm.nodup_iff.mpr (nodup_placed h.distinct next)).sublist
      (hcut.map _)
  · exact (List.pairwise_insertionSort falls _).sublist hcut

/-- A record stays or gives way to a newer one of its task. -/
theorem upsert_kept (h : Listed records) {next r s : SshSftpTaskRecord D}
    (hr : r ∈ records) (hs : s ∈ upsertSshSftpTask records next)
    (hid : s.taskId = r.taskId) : s = r ∨ s = next ∧ Replaces r next := by
  have hplaced := (List.mem_insertionSort _).mp (List.mem_of_mem_take hs)
  have hmap : s ∈ records.map (replaced next) →
      s = r ∨ s = next ∧ Replaces r next := by
    intro hmem
    obtain ⟨r', hr', rfl⟩ := List.mem_map.mp hmem
    rw [taskId_replaced] at hid
    obtain rfl : r' = r := List.inj_on_of_nodup_map h.distinct hr' hr hid
    exact replaced_cases next r'
  rcases placed_cases records next with heq | ⟨hnew, heq⟩
  · exact hmap (heq ▸ hplaced)
  · rw [heq, List.mem_append, List.mem_singleton] at hplaced
    rcases hplaced with hmem | rfl
    · exact hmap hmem
    · exact absurd (hid ▸ List.mem_map_of_mem hr) hnew

/-- The list after updates, in the order they arrived. -/
def taskList (updates : List (SshSftpTaskRecord D)) :
    List (SshSftpTaskRecord D) :=
  exec upsertSshSftpTask [] updates

theorem listed_run (updates : List (SshSftpTaskRecord D)) :
    Listed (taskList updates) := by
  have hstart : Listed ([] : List (SshSftpTaskRecord D)) :=
    ⟨List.nodup_nil, Nat.zero_le _, List.Pairwise.nil⟩
  exact @exec_invariant _ _ upsertSshSftpTask Listed
    (fun _ next h => h.upsert next) [] updates hstart

theorem taskList_snoc (updates : List (SshSftpTaskRecord D))
    (next : SshSftpTaskRecord D) :
    taskList (updates ++ [next])
      = upsertSshSftpTask (taskList updates) next := by
  rw [taskList, exec_append]
  rfl

/-- While a task stays in the list its sequence does not fall. -/
theorem sequence_le_run {before during : List (SshSftpTaskRecord D)}
    {r s : SshSftpTaskRecord D} (hr : r ∈ taskList before)
    (hstays : ∀ begun, begun <+: during →
      r.taskId ∈ taskIds (taskList (before ++ begun)))
    (hs : s ∈ taskList (before ++ during)) (hid : s.taskId = r.taskId) :
    r.sequence ≤ s.sequence := by
  induction during using List.reverseRecOn generalizing s with
  | nil =>
    rw [List.append_nil] at hs
    rw [List.inj_on_of_nodup_map (listed_run before).distinct hs hr hid]
  | append_singleton during next ih =>
    have hwas := hstays during (List.prefix_append _ _)
    obtain ⟨t, ht, htid⟩ := List.mem_map.mp hwas
    have hle := ih (fun begun hbegun =>
      hstays begun (hbegun.trans (List.prefix_append _ _))) ht htid
    rw [← List.append_assoc, taskList_snoc] at hs
    rcases upsert_kept (listed_run _) ht hs (hid.trans htid.symm) with
      rfl | ⟨rfl, hnewer⟩
    · exact hle
    · rcases hnewer.newer with hlt | ⟨hsame, -⟩
      · exact hle.trans hlt.le
      · exact hle.trans hsame.le

/-- What holds of a list of tasks after any updates. -/
structure Durable (updates : List (SshSftpTaskRecord D)) : Prop where
  listed : Listed (taskList updates)
  kept : ∀ next r s, r ∈ taskList updates →
    s ∈ upsertSshSftpTask (taskList updates) next → s.taskId = r.taskId →
    s = r ∨ s = next ∧ Replaces r next
  sequence : ∀ during r s, r ∈ taskList updates →
    (∀ begun, begun <+: during →
      r.taskId ∈ taskIds (taskList (updates ++ begun))) →
    s ∈ taskList (updates ++ during) → s.taskId = r.taskId →
    r.sequence ≤ s.sequence

theorem task_list_durable (updates : List (SshSftpTaskRecord D)) :
    Durable updates where
  listed := listed_run updates
  kept := fun _ _ _ hr hs hid => upsert_kept (listed_run updates) hr hs hid
  sequence := fun _ _ _ hr hstays hs hid => sequence_le_run hr hstays hs hid

/-- A record of an unknown size takes the place of one with an offset. -/
theorem offset_forgotten :
    ¬ ∀ (updates : List (SshSftpTaskRecord Int)) (next r s : SshSftpTaskRecord Int),
      r ∈ taskList updates → s ∈ taskList (updates ++ [next]) →
        s.taskId = r.taskId → r.verifiedOffset ≤ s.verifiedOffset := by
  intro h
  have hle := h [⟨"a", 100, 50, 1, 1⟩] ⟨"a", -1, -1, 2, 2⟩
    ⟨"a", 100, 50, 1, 1⟩ ⟨"a", -1, -1, 2, 2⟩ (by decide) (by decide) rfl
  exact absurd hle (by decide)

end RemoteDesk.Sftp
