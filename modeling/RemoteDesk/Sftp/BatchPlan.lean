/-
What the SFTP batch policy accepts, and where it is placed.

The loop goes through exactly when every item passes alone, the counts
stay within their limits, and the normalised paths are different
(`planItems_ok_iff`); none of these asks for an order. The byte total is
the one thing an order could change, by rounding, so it is asked to stay
where doubles are exact (`ExactTotal`).
-/
import RemoteDesk.Sftp.Placement

namespace RemoteDesk.Sftp

open Lib

-- ================================ accepted

/-- The path an item is accepted under. -/
def acceptedPath (limits : SshSftpBatchLimits) (item : SshSftpTreeItem) :
    List Nat :=
  (relativePathInfo item.relativePath limits).normalized

def acceptedItem (limits : SshSftpBatchLimits) (item : SshSftpTreeItem) :
    SshSftpTreeItem :=
  { item with relativePath := acceptedPath limits item }

/-- The bytes an item adds. -/
def bytesOf (item : SshSftpTreeItem) : Nat :=
  if item.isDirectory then 0 else (item.size.getD 0).toNat

def filesOf (item : SshSftpTreeItem) : Nat :=
  if item.isDirectory then 0 else 1

def totalOf (items : List SshSftpTreeItem) : Nat := (items.map bytesOf).sum

def countOf (items : List SshSftpTreeItem) : Nat := (items.map filesOf).sum

section Paths

variable {limits : SshSftpBatchLimits} {item : SshSftpTreeItem}

/-- An item that passes has components, and is accepted under them. -/
theorem segments_of_itemReason (h : itemReason limits item = none) :
    ∃ parts, normalizedSegments item.relativePath false = some parts
      ∧ acceptedPath limits item = [47].intercalate parts := by
  have hvalid : (relativePathInfo item.relativePath limits).valid = true := by
    unfold itemReason at h
    dsimp only at h
    split at h
    · cases h
    · rename_i hv
      simpa using hv
  unfold acceptedPath
  unfold relativePathInfo at hvalid ⊢
  split at hvalid
  · cases hvalid
  rename_i hpath
  rw [if_neg hpath]
  split at hvalid
  · cases hvalid
  rename_i parts hparts
  dsimp only at hvalid
  split at hvalid
  · cases hvalid
  rename_i hlong
  refine ⟨parts, hparts, ?_⟩
  dsimp only
  rw [if_neg hlong]

end Paths

-- ================================ one item

theorem above_mono {m n : Nat} {limit : Number} (hmn : m ≤ n)
    (h : above m limit = true) : above n limit = true := by
  cases limit with
  | none => cases h
  | some i =>
    simp only [above, Option.any_some, decide_eq_true_eq] at h ⊢
    omega

/-- The state an item leads to when it is not refused. -/
def BatchState.add (limits : SshSftpBatchLimits) (s : BatchState)
    (item : SshSftpTreeItem) : BatchState where
  accepted := s.accepted ++ [acceptedItem limits item]
  fileCount := s.fileCount + filesOf item
  totalBytes := if item.isDirectory then s.totalBytes
    else toDouble (s.totalBytes + bytesOf item)

/-- When an item is let through. -/
structure Fits (limits : SshSftpBatchLimits) (s : BatchState)
    (item : SshSftpTreeItem) : Prop where
  alone : itemReason limits item = none
  files : item.isDirectory = false →
    above (s.fileCount + filesOf item) limits.maxFiles = false
  bytes : item.isDirectory = false →
    above (toDouble (s.totalBytes + bytesOf item)) limits.maxTotalBytes = false
  path : acceptedPath limits item ∉ s.accepted.map (·.relativePath)

variable {item : SshSftpTreeItem} {limits : SshSftpBatchLimits} {s : BatchState}
variable {items : List SshSftpTreeItem}

theorem planItem_fits (h : Fits limits s item) :
    planItem limits s item = .ok (s.add limits item) := by
  have hpath : (s.accepted.any fun previous => decide
      (previous.relativePath
        = (relativePathInfo item.relativePath limits).normalized)) = false := by
    rw [Bool.eq_false_iff]
    intro hany
    obtain ⟨previous, hm, heq⟩ := List.any_eq_true.mp hany
    exact h.path (List.mem_map.mpr ⟨previous, hm, of_decide_eq_true heq⟩)
  unfold planItem
  rw [h.alone]
  dsimp only
  cases hdir : item.isDirectory with
  | true =>
    rw [if_neg (by simp), if_neg (by simp), if_neg (by simp [hpath])]
    simp [BatchState.add, acceptedItem, acceptedPath, filesOf, hdir]
  | false =>
    have hfiles := h.files hdir
    have hbytes := h.bytes hdir
    simp only [filesOf, bytesOf, hdir, Bool.false_eq_true, if_false]
      at hfiles hbytes
    rw [if_neg (by simp [hfiles]), if_neg (by simp [hbytes]),
      if_neg (by simp [hpath])]
    simp [BatchState.add, acceptedItem, acceptedPath, filesOf, bytesOf, hdir]

theorem notMem_paths
    (h : ¬ (s.accepted.any fun previous => decide (previous.relativePath
      = (relativePathInfo item.relativePath limits).normalized)) = true) :
    acceptedPath limits item ∉ s.accepted.map (·.relativePath) := by
  intro hm
  obtain ⟨previous, hprevious, heq⟩ := List.mem_map.mp hm
  exact h (List.any_eq_true.mpr ⟨previous, hprevious, decide_eq_true heq⟩)

variable {s' : BatchState} {items' : List SshSftpTreeItem}

theorem fits_of_planItem
    (h : planItem limits s item = .ok s') : Fits limits s item := by
  unfold planItem at h
  dsimp only at h
  split at h
  · cases h
  rename_i halone
  cases hdir : item.isDirectory with
  | true =>
    rw [hdir, if_neg (by simp), if_neg (by simp)] at h
    split at h
    · cases h
    · exact ⟨halone, fun hfile => by simp [hdir] at hfile,
        fun hfile => by simp [hdir] at hfile, notMem_paths ‹_›⟩
  | false =>
    simp only [hdir, Bool.false_eq_true, if_false, Bool.not_false, true_and]
      at h
    split at h
    · cases h
    rename_i hfiles
    split at h
    · cases h
    rename_i hbytes
    split at h
    · cases h
    · refine ⟨halone, fun _ => ?_, fun _ => ?_, notMem_paths ‹_›⟩
      · simpa [filesOf, hdir] using hfiles
      · simpa [bytesOf, hdir] using hbytes

theorem planItem_ok_iff :
    planItem limits s item = .ok s'
      ↔ Fits limits s item ∧ s.add limits item = s' := by
  constructor
  · intro h
    have hfits := fits_of_planItem h
    rw [planItem_fits hfits] at h
    exact ⟨hfits, Except.ok.inj h⟩
  · intro ⟨hfits, hadd⟩
    rw [planItem_fits hfits, hadd]

-- ================================== totals

theorem toDouble_exact {n : Nat} (h : n ≤ 2 ^ 53) : toDouble n = n :=
  if_pos h

/-- Rounding does not bring a total back below 2^53. -/
theorem le_toDouble {n : Nat} (h : 2 ^ 53 < n) : 2 ^ 53 ≤ toDouble n := by
  have hlog : 53 ≤ n.log2 := (Nat.le_log2 (by omega)).mpr h.le
  have hunit : 2 ^ (n.log2 - 52) * 2 ^ 52 = 2 ^ n.log2 := by
    rw [← pow_add]
    congr 1
    omega
  have hle : 2 ^ n.log2 ≤ n := Nat.log2_self_le (by omega)
  have hq : 2 ^ 52 ≤ n / 2 ^ (n.log2 - 52) := by
    rw [Nat.le_div_iff_mul_le (Nat.two_pow_pos _), Nat.mul_comm, hunit]
    exact hle
  have hpow : 2 ^ 53 ≤ 2 ^ 52 * 2 ^ (n.log2 - 52) := by
    rw [← pow_add]
    exact Nat.pow_le_pow_right (by norm_num) (by omega)
  unfold toDouble
  rw [if_neg (by omega)]
  dsimp only
  refine hpow.trans (Nat.mul_le_mul_right _ ?_)
  split
  · exact hq.trans (Nat.le_succ _)
  · exact hq

/-- The total stays where doubles are exact, or the limit does. -/
def ExactTotal (limits : SshSftpBatchLimits) (total : Nat) : Prop :=
  (∃ limit, limits.maxTotalBytes = some limit ∧ limit < 2 ^ 53)
    ∨ total ≤ 2 ^ 53

/-- One more file against the limit, as if nothing were rounded. -/
theorem above_toDouble {n total : Nat} (hexact : ExactTotal limits total)
    (hle : n ≤ total) :
    above (toDouble n) limits.maxTotalBytes = above n limits.maxTotalBytes
      ∧ (above n limits.maxTotalBytes = false → toDouble n = n) := by
  by_cases hn : n ≤ 2 ^ 53
  · rw [toDouble_exact hn]
    exact ⟨rfl, fun _ => rfl⟩
  · rcases hexact with ⟨limit, hlimit, hsmall⟩ | htotal
    · have hround := le_toDouble (Nat.lt_of_not_le hn)
      have hbig : above n limits.maxTotalBytes = true := by
        rw [hlimit]
        simp only [above, Option.any_some, decide_eq_true_eq]
        omega
      have hbig' : above (toDouble n) limits.maxTotalBytes = true := by
        rw [hlimit]
        simp only [above, Option.any_some, decide_eq_true_eq]
        omega
      rw [hbig, hbig']
      exact ⟨rfl, fun h => by cases h⟩
    · omega

-- =============================== all items

/-- The conditions on the items as a whole, from a state on. -/
structure AllFit (limits : SshSftpBatchLimits) (s : BatchState)
    (items : List SshSftpTreeItem) : Prop where
  alone : ∀ item ∈ items, itemReason limits item = none
  files : above (s.fileCount + countOf items) limits.maxFiles = false
  bytes : above (s.totalBytes + totalOf items) limits.maxTotalBytes = false
  paths : (s.accepted.map (·.relativePath)
    ++ items.map (acceptedPath limits)).Nodup

/-- The limits hold of what is counted so far. -/
structure Within (limits : SshSftpBatchLimits) (s : BatchState) : Prop where
  files : above s.fileCount limits.maxFiles = false
  bytes : above s.totalBytes limits.maxTotalBytes = false
  nodup : (s.accepted.map (·.relativePath)).Nodup

section Loop

theorem countOf_cons :
    countOf (item :: items) = filesOf item + countOf items := by
  simp [countOf]

theorem totalOf_cons :
    totalOf (item :: items) = bytesOf item + totalOf items := by
  simp [totalOf]

theorem not_above_of_le {m n : Nat} {limit : Number} (hmn : m ≤ n)
    (h : above n limit = false) : above m limit = false := by
  rw [Bool.eq_false_iff] at h ⊢
  exact fun hm => h (above_mono hmn hm)

theorem paths_add : ((s.add limits item).accepted.map (·.relativePath))
    = s.accepted.map (·.relativePath) ++ [acceptedPath limits item] := by
  simp [BatchState.add, acceptedItem]

/-- What is counted after an item that fits. -/
theorem totalBytes_add (hexact : ExactTotal limits
      (s.totalBytes + totalOf (item :: items)))
    (hfits : Fits limits s item) :
    (s.add limits item).totalBytes = s.totalBytes + bytesOf item := by
  unfold BatchState.add
  dsimp only
  split
  · rename_i hdir
    rw [bytesOf, if_pos hdir, Nat.add_zero]
  · rename_i hfile
    rw [Bool.not_eq_true] at hfile
    have hle : s.totalBytes + bytesOf item
        ≤ s.totalBytes + totalOf (item :: items) := by
      rw [totalOf_cons]
      omega
    obtain ⟨hsame, hkept⟩ := above_toDouble hexact hle
    exact hkept (hsame ▸ hfits.bytes hfile)

theorem within_add (hexact : ExactTotal limits
      (s.totalBytes + totalOf (item :: items)))
    (hwithin : Within limits s) (hfits : Fits limits s item) :
    Within limits (s.add limits item) := by
  have htotal := totalBytes_add hexact hfits
  cases hdir : item.isDirectory with
  | true =>
    have hbytes : bytesOf item = 0 := by simp [bytesOf, hdir]
    have hfiles : filesOf item = 0 := by simp [filesOf, hdir]
    refine ⟨?_, ?_, ?_⟩
    · show above (s.fileCount + filesOf item) limits.maxFiles = false
      rw [hfiles]
      exact hwithin.files
    · rw [htotal, hbytes]
      exact hwithin.bytes
    · rw [paths_add, ← List.concat_eq_append]
      exact List.Nodup.concat hfits.path hwithin.nodup
  | false =>
    refine ⟨hfits.files hdir, ?_, ?_⟩
    · rw [BatchState.add, hdir]
      exact hfits.bytes hdir
    · rw [paths_add, ← List.concat_eq_append]
      exact List.Nodup.concat hfits.path hwithin.nodup

theorem allFit_cons (hexact : ExactTotal limits
      (s.totalBytes + totalOf (item :: items))) :
    AllFit limits s (item :: items)
      ↔ Fits limits s item ∧ AllFit limits (s.add limits item) items := by
  constructor
  · intro h
    have hle : s.totalBytes + bytesOf item
        ≤ s.totalBytes + totalOf (item :: items) := by
      rw [totalOf_cons]
      omega
    have hfits : Fits limits s item := by
      refine ⟨h.alone item List.mem_cons_self, fun _ => ?_, fun _ => ?_, ?_⟩
      · refine not_above_of_le ?_ h.files
        rw [countOf_cons]
        omega
      · rw [(above_toDouble hexact hle).1]
        exact not_above_of_le hle h.bytes
      · have hpaths := h.paths
        rw [List.map_cons, List.nodup_append] at hpaths
        intro hm
        exact hpaths.2.2 _ hm _ List.mem_cons_self rfl
    refine ⟨hfits, ⟨fun x hx => h.alone x (List.mem_cons_of_mem _ hx), ?_, ?_,
      ?_⟩⟩
    · have hfiles := h.files
      rw [countOf_cons, ← Nat.add_assoc] at hfiles
      exact hfiles
    · have hbytes := h.bytes
      rw [totalOf_cons, ← Nat.add_assoc] at hbytes
      rw [totalBytes_add hexact hfits]
      exact hbytes
    · have hpaths := h.paths
      rw [List.map_cons] at hpaths
      rw [paths_add, List.append_assoc]
      exact hpaths
  · intro ⟨hfits, h⟩
    refine ⟨List.forall_mem_cons.mpr ⟨hfits.alone, h.alone⟩, ?_, ?_, ?_⟩
    · rw [countOf_cons, ← Nat.add_assoc]
      exact h.files
    · have hbytes := h.bytes
      rw [totalBytes_add hexact hfits] at hbytes
      rw [totalOf_cons, ← Nat.add_assoc]
      exact hbytes
    · have hpaths := h.paths
      rw [paths_add, List.append_assoc] at hpaths
      exact hpaths

end Loop

theorem exactTotal_add
    (hexact : ExactTotal limits (s.totalBytes + totalOf (item :: items)))
    (hfits : Fits limits s item) :
    ExactTotal limits ((s.add limits item).totalBytes + totalOf items) := by
  rw [totalBytes_add hexact hfits, Nat.add_assoc, ← totalOf_cons]
  exact hexact

/-- The loop goes through exactly when the items fit together, whatever
their order. -/
theorem planItems_ok_iff
    (hexact : ExactTotal limits (s.totalBytes + totalOf items))
    (hwithin : Within limits s) :
    (∃ s', planItems limits s items = .ok s') ↔ AllFit limits s items := by
  induction items generalizing s with
  | nil =>
    refine ⟨fun _ => ⟨by simp, hwithin.files, hwithin.bytes, ?_⟩,
      fun _ => ⟨s, rfl⟩⟩
    rw [List.map_nil, List.append_nil]
    exact hwithin.nodup
  | cons item items ih =>
    rw [allFit_cons hexact]
    constructor
    · intro ⟨s', h⟩
      rw [planItems] at h
      split at h
      · cases h
      · rename_i next hnext
        obtain ⟨hfits, rfl⟩ := planItem_ok_iff.mp hnext
        exact ⟨hfits, (ih (exactTotal_add hexact hfits)
          (within_add hexact hwithin hfits)).mp ⟨s', h⟩⟩
    · intro ⟨hfits, hrest⟩
      rw [planItems, planItem_fits hfits]
      exact (ih (exactTotal_add hexact hfits)
        (within_add hexact hwithin hfits)).mpr hrest

/-- What the loop leaves behind when it goes through. -/
theorem planItems_ok (h : planItems limits s items = .ok s')
    (hnodup : (s.accepted.map (·.relativePath)).Nodup) :
    s'.accepted = s.accepted ++ items.map (acceptedItem limits)
      ∧ (s'.accepted.map (·.relativePath)).Nodup
      ∧ ∀ item ∈ items, itemReason limits item = none := by
  induction items generalizing s with
  | nil =>
    rw [planItems, Except.ok.injEq] at h
    rw [← h]
    exact ⟨by simp, hnodup, by simp⟩
  | cons item items ih =>
    rw [planItems] at h
    split at h
    · cases h
    · rename_i next hnext
      obtain ⟨hfits, rfl⟩ := planItem_ok_iff.mp hnext
      have hnodup' : ((s.add limits item).accepted.map
          (·.relativePath)).Nodup := by
        rw [paths_add, ← List.concat_eq_append]
        exact List.Nodup.concat hfits.path hnodup
      obtain ⟨haccepted, hpaths, halone⟩ := ih h hnodup'
      refine ⟨?_, hpaths, List.forall_mem_cons.mpr ⟨hfits.alone, halone⟩⟩
      rw [haccepted]
      simp [BatchState.add]

-- ================================ the plan

/-- A file that is also a directory of another accepted item. -/
def conflicts (accepted : List SshSftpTreeItem) (item : SshSftpTreeItem) :
    Bool :=
  !item.isDirectory && hasPathPrefix accepted item.relativePath

/-- When a plan is accepted, and what it holds. -/
theorem plan_accepted_iff (localeCompare : List Nat → List Nat → Int)
    (items : List SshSftpTreeItem) (limits : SshSftpBatchLimits) :
    (planSshSftpBatch localeCompare items limits).accepted = true
      ↔ validLimits limits = true ∧ items ≠ []
        ∧ above items.length limits.maxItems = false
        ∧ ∃ s, planItems limits {} items = .ok s
          ∧ ∀ item ∈ s.accepted, conflicts s.accepted item = false := by
  unfold planSshSftpBatch
  by_cases hlimits : validLimits limits = true
  swap
  · simp [hlimits, invalidPlan]
  rw [if_neg (by simp [hlimits])]
  by_cases hitems : items = []
  · simp [hitems, invalidPlan]
  rw [if_neg hitems]
  by_cases hcount : above items.length limits.maxItems = true
  · simp [hcount, invalidPlan]
  rw [if_neg hcount]
  rw [Bool.not_eq_true] at hcount
  cases hplan : planItems limits {} items with
  | error refusal => simp [invalidPlan]
  | ok s =>
    dsimp only
    rw [and_iff_right hlimits, and_iff_right hitems, and_iff_right hcount]
    split
    · rename_i item hfound
      have hmem := List.mem_of_find?_eq_some hfound
      have htest := List.find?_some hfound
      constructor
      · intro h
        cases h
      · intro ⟨s', hs', hnone⟩
        obtain rfl := Except.ok.inj hs'
        have hfree := hnone item hmem
        unfold conflicts at hfree
        rw [htest] at hfree
        cases hfree
    · rename_i hnone
      refine ⟨fun _ => ⟨s, rfl, fun item hitem => ?_⟩, fun _ => rfl⟩
      have hfree := List.find?_eq_none.mp hnone item hitem
      rw [Bool.not_eq_true] at hfree
      exact hfree

theorem plan_items {localeCompare : List Nat → List Nat → Int}
    (h : (planSshSftpBatch localeCompare items limits).accepted = true) :
    (planSshSftpBatch localeCompare items limits).items.Perm
        (items.map (acceptedItem limits))
      ∧ (items.map (acceptedPath limits)).Nodup
      ∧ ∀ item ∈ items, itemReason limits item = none := by
  obtain ⟨hlimits, hitems, hcount, s, hs, hfree⟩ :=
    (plan_accepted_iff localeCompare items limits).mp h
  obtain ⟨haccepted, hpaths, halone⟩ := planItems_ok hs (by simp)
  have hnone : (s.accepted.find? fun item =>
      !item.isDirectory && hasPathPrefix s.accepted item.relativePath)
      = none := by
    rw [List.find?_eq_none]
    intro item hitem
    rw [Bool.not_eq_true]
    exact hfree item hitem
  rw [List.nil_append] at haccepted
  refine ⟨?_, ?_, halone⟩
  · unfold planSshSftpBatch
    rw [if_neg (by simp [hlimits]), if_neg hitems, if_neg (by simp [hcount]),
      hs]
    dsimp only
    rw [hnone, ← haccepted]
    exact List.mergeSort_perm _ _
  · rw [haccepted, List.map_map] at hpaths
    exact hpaths

theorem ExactTotal.perm (hperm : items.Perm items')
    (h : ExactTotal limits (totalOf items)) :
    ExactTotal limits (totalOf items') := by
  rw [totalOf, ← (hperm.map bytesOf).sum_eq]
  exact h

/-- The conditions on the items as a whole do not ask for an order. -/
theorem AllFit.perm (hperm : items.Perm items')
    (h : AllFit limits s items) : AllFit limits s items' := by
  refine ⟨fun item hitem => h.alone item (hperm.mem_iff.mpr hitem), ?_, ?_,
    ?_⟩
  · rw [countOf, ← (hperm.map filesOf).sum_eq]
    exact h.files
  · rw [totalOf, ← (hperm.map bytesOf).sum_eq]
    exact h.bytes
  · have hpaths := (hperm.map (acceptedPath limits)).append_left
      (s.accepted.map (·.relativePath))
    exact hpaths.nodup_iff.mp h.paths

theorem conflicts_perm {accepted accepted' : List SshSftpTreeItem}
    (hperm : accepted.Perm accepted') (item : SshSftpTreeItem) :
    conflicts accepted item = conflicts accepted' item := by
  unfold conflicts hasPathPrefix
  congr 1
  rw [Bool.eq_iff_iff, List.any_eq_true, List.any_eq_true]
  simp only [hperm.mem_iff]

theorem within_start (h : validLimits limits = true) : Within limits {} := by
  unfold validLimits at h
  simp only [Bool.and_eq_true] at h
  obtain ⟨⟨⟨⟨⟨-, -⟩, hfiles⟩, hbytes⟩, -⟩, -⟩ := h
  refine ⟨?_, ?_, by simp⟩
  · cases hlimit : limits.maxFiles with
    | none => rfl
    | some i =>
      rw [hlimit] at hfiles
      simp only [positive, Option.any_some, decide_eq_true_eq] at hfiles
      simp only [above, Option.any_some, decide_eq_false_iff_not]
      omega
  · cases hlimit : limits.maxTotalBytes with
    | none => rfl
    | some i =>
      rw [hlimit] at hbytes
      simp only [nonnegative, Option.any_some, decide_eq_true_eq] at hbytes
      simp only [above, Option.any_some, decide_eq_false_iff_not]
      omega

/-- One order is accepted if another is. -/
theorem accepted_of_perm {localeCompare : List Nat → List Nat → Int}
    (hexact : ExactTotal limits (totalOf items)) (hperm : items.Perm items')
    (h : (planSshSftpBatch localeCompare items limits).accepted = true) :
    (planSshSftpBatch localeCompare items' limits).accepted = true := by
  rw [plan_accepted_iff] at h ⊢
  obtain ⟨hlimits, hitems, hcount, s, hs, hfree⟩ := h
  have hwithin := within_start hlimits
  have hstart : ExactTotal limits (({} : BatchState).totalBytes
      + totalOf items) := by
    rw [Nat.zero_add]
    exact hexact
  have hstart' : ExactTotal limits (({} : BatchState).totalBytes
      + totalOf items') := by
    rw [Nat.zero_add]
    exact hexact.perm hperm
  have hfit := (planItems_ok_iff hstart hwithin).mp ⟨s, hs⟩
  obtain ⟨s', hs'⟩ :=
    (planItems_ok_iff hstart' hwithin).mpr (hfit.perm hperm)
  have haccepted := (planItems_ok hs (by simp)).1
  have haccepted' := (planItems_ok hs' (by simp)).1
  have hlist : s.accepted.Perm s'.accepted := by
    rw [haccepted, haccepted']
    exact hperm.map (acceptedItem limits)
  refine ⟨hlimits, fun hnil => hitems ?_, ?_, s', hs', fun item hitem => ?_⟩
  · rw [hnil] at hperm
    exact hperm.eq_nil
  · rw [← hperm.length_eq]
    exact hcount
  · rw [← conflicts_perm hlist]
    exact hfree item (hlist.mem_iff.mpr hitem)

-- ================================== placed

/-- Every item is placed below the root under its own path, and no two at
one place. -/
structure Placed (root normalizedRoot : List Nat)
    (items : List SshSftpTreeItem) : Prop where
  inside : ∀ item ∈ items,
    joinSshSftpRelativeRemotePath root item.relativePath
      = some (below normalizedRoot item.relativePath)
  apart : items.Pairwise fun left right =>
    joinSshSftpRelativeRemotePath root left.relativePath
      ≠ joinSshSftpRelativeRemotePath root right.relativePath

/-- An accepted item is where it belongs exactly when its components
survive. -/
theorem placed_item_iff {root normalizedRoot : List Nat}
    (hroot : normalizeSshSftpRemotePath root = some normalizedRoot)
    (h : itemReason limits item = none) :
    joinSshSftpRelativeRemotePath root (acceptedPath limits item)
        = some (below normalizedRoot (acceptedPath limits item))
      ↔ ∀ parts, normalizedSegments item.relativePath false = some parts →
        Survives normalizedRoot parts := by
  obtain ⟨parts, hparts, hpath⟩ := segments_of_itemReason h
  obtain ⟨hne, hcomps⟩ := segments_ne hparts
  rw [hpath, joinRelative_iff hroot hne hcomps]
  constructor
  · intro hsurvives other hother
    rw [hparts, Option.some.injEq] at hother
    rw [← hother]
    exact hsurvives
  · intro hall
    exact hall parts hparts

/-- Paths that are below one root by their own text are different. -/
theorem apart_of_inside {root normalizedRoot : List Nat}
    (hnodup : (items.map (·.relativePath)).Nodup) (hinside : ∀ item ∈ items,
      joinSshSftpRelativeRemotePath root item.relativePath
        = some (below normalizedRoot item.relativePath)) :
    items.Pairwise fun left right =>
      joinSshSftpRelativeRemotePath root left.relativePath
        ≠ joinSshSftpRelativeRemotePath root right.relativePath := by
  have hpairs := List.pairwise_map.mp hnodup
  refine hpairs.imp_of_mem fun {left right} hleft hright hne heq => ?_
  rw [hinside left hleft, hinside right hright, Option.some.injEq] at heq
  exact hne (below_inj heq)

/-- A comparison by code units. -/
def unitCompare (left right : List Nat) : Int :=
  if left = right then 0 else if left < right then -1 else 1

/-- A directory and a file in it. -/
def plainItems : List SshSftpTreeItem :=
  [{ relativePath := codes "docs", name := codes "docs", isDirectory := true },
   { relativePath := codes "docs/a b.txt", name := codes "a b.txt"
     size := some 12 }]

/-- Two files whose directories differ by a space at the end. -/
def spacedItem : SshSftpTreeItem :=
  { relativePath := codes "a /x", name := codes "x", size := some 1 }

def spacedItems : List SshSftpTreeItem :=
  [spacedItem,
   { relativePath := codes "a/x", name := codes "x", size := some 2 }]

end RemoteDesk.Sftp
