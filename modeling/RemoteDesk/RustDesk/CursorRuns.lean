/-
What the cache of cursor shapes keeps over a run
(rustdesk_ffi/src/cursor_state.rs).

An id that comes in goes to the back of the order, and the loop that makes
room takes ids off the front: it meets the selected one last.
-/
import RemoteDesk.RustDesk.CursorCache

namespace RemoteDesk.RustDesk

open Lib

-- =============================== the cache

/-- An entry is kept under its own id, decodes, and is no heavier than a
message may be. -/
structure CursorCacheEntry.Fine (decompress : Decompress)
    (entry : CursorCacheEntry) (id : Nat) : Prop where
  named : entry.id = id
  decodes : ∃ rgba, decodeColors decompress entry.compressedColors
    entry.expectedRgbaLen = some rgba
  light : entry.bytes ≤ MAX_CURSOR_CACHE_BYTES

/-- The order names what is cached, and the bytes are counted. -/
structure Cached (decompress : Decompress) (state : CursorState) : Prop where
  order : state.shapeOrder.Perm state.shapes.keys
  bytes : state.cachedBytes = totalWeight CursorCacheEntry.bytes state.shapes
  fine : ∀ id entry, state.shapes.lookup id = some entry →
    entry.Fine decompress id

variable {decompress : Decompress} {state : CursorState} {id : Nat}
  {entry : CursorCacheEntry}

theorem Cached.mem_order (h : Cached decompress state) :
    id ∈ state.shapeOrder ↔ id ∈ state.shapes :=
  h.order.mem_iff

theorem lookup_of_erase {m : AList fun _ : Nat => CursorCacheEntry}
    {out : Nat} (h : (m.erase out).lookup id = some entry) :
    id ≠ out ∧ m.lookup id = some entry := by
  by_cases hid : id = out
  · rw [hid, AList.lookup_erase] at h
    cases h
  · rw [AList.lookup_erase_ne hid] at h
    exact ⟨hid, h⟩

/-- What is taken out of the cache takes its bytes and its place along. -/
theorem Cached.erase (h : Cached decompress state)
    (hlookup : state.shapes.lookup id = some entry) :
    Cached decompress
      { state with
        shapes := state.shapes.erase id
        cachedBytes := state.cachedBytes - entry.bytes
        shapeOrder := state.shapeOrder.erase id } where
  order := by
    rw [AList.keys_erase]
    exact h.order.erase id
  bytes := by
    have hbytes := totalWeight_erase (w := CursorCacheEntry.bytes) hlookup
    have htotal := h.bytes
    dsimp only
    omega
  fine other entry' hother :=
    h.fine other entry' (lookup_of_erase hother).2

theorem Cached.removeCachedEntry (h : Cached decompress state) (id : Nat) :
    Cached decompress (state.removeCachedEntry id)
      ∧ id ∉ (state.removeCachedEntry id).shapes
      ∧ (state.removeCachedEntry id).cachedBytes ≤ state.cachedBytes := by
  rw [CursorState.removeCachedEntry]
  rcases hlookup : state.shapes.lookup id with _ | entry
  · exact ⟨h, AList.lookup_eq_none.1 hlookup, le_rfl⟩
  · exact ⟨h.erase hlookup, fun hmem => (AList.mem_erase.1 hmem).1 rfl,
      Nat.sub_le _ _⟩

@[simp] theorem removeCachedEntry_evictedIds :
    (state.removeCachedEntry id).evictedIds = state.evictedIds := by
  rw [CursorState.removeCachedEntry]
  split <;> rfl

@[simp] theorem removeCachedEntry_cacheBudgetBytes :
    (state.removeCachedEntry id).cacheBudgetBytes
      = state.cacheBudgetBytes := by
  rw [CursorState.removeCachedEntry]
  split <;> rfl

theorem mem_of_removeCachedEntry {other : Nat}
    (h : other ∈ (state.removeCachedEntry id).shapes) :
    other ∈ state.shapes := by
  rw [CursorState.removeCachedEntry] at h
  split at h
  · exact (AList.mem_erase.1 h).2
  · exact h

/-- What comes in brings its bytes, and has the last place. -/
theorem Cached.insert (h : Cached decompress state) (hid : id ∉ state.shapes)
    (hfine : entry.Fine decompress id)
    (hroom : state.cachedBytes + entry.bytes ≤ usizeMax) :
    Cached decompress
      { state with
        cachedBytes := min (state.cachedBytes + entry.bytes) usizeMax
        shapes := state.shapes.insert id entry
        shapeOrder := state.shapeOrder ++ [id] } where
  order := by
    have hkeys : (state.shapes.insert id entry).keys = id :: state.shapes.keys := by
      rw [AList.keys_insert, List.erase_of_not_mem hid]
    rw [hkeys]
    exact (List.perm_append_singleton id _).trans (h.order.cons id)
  bytes := by
    rw [totalWeight_insert hid, ← h.bytes]
    exact Nat.min_eq_left hroom
  fine other entry' hother := by
    by_cases hsame : other = id
    · rw [hsame, AList.lookup_insert, Option.some.injEq] at hother
      rw [hsame, ← hother]
      exact hfine
    · rw [AList.lookup_insert_ne hsame] at hother
      exact h.fine other entry' hother

/-- A cache of one shape weighs what the shape does. -/
theorem Cached.alone (h : Cached decompress state)
    (horder : state.shapeOrder = [id]) :
    state.cachedBytes ≤ MAX_CURSOR_CACHE_BYTES := by
  have hmem : id ∈ state.shapes := by
    rw [← h.mem_order, horder]
    exact List.mem_singleton_self id
  obtain ⟨entry, hlookup⟩ := Option.isSome_iff_exists.1
    (AList.lookup_isSome.2 hmem)
  have hempty : (state.shapes.erase id).entries = [] := by
    have hkeys := (h.order.erase id).symm
    rw [horder, List.erase_cons_head, ← AList.keys_erase] at hkeys
    exact List.map_eq_nil_iff.1 hkeys.eq_nil
  have hweight := totalWeight_erase (w := CursorCacheEntry.bytes) hlookup
  rw [totalWeight, hempty] at hweight
  have hlight := (h.fine id entry hlookup).light
  have hbytes := h.bytes
  simp only [List.map_nil, List.sum_nil] at hweight
  omega

-- =========================== the selection

/-- The selected shape is cached, and shown as its entry decodes. -/
def Shown (decompress : Decompress) (state : CursorState) (id : Nat) : Prop :=
  ∃ entry rgba, state.shapes.lookup id = some entry
    ∧ decodeColors decompress entry.compressedColors entry.expectedRgbaLen
      = some rgba
    ∧ state.selectedShape = some (entry.shape rgba)

/-- The cache is within its budget but for the selected shape, and what was
evicted is not cached. -/
structure Sound (decompress : Decompress) (state : CursorState) : Prop extends
    Cached decompress state where
  selected : ∀ id, state.selectedId = some id → Shown decompress state id
  within : state.cachedBytes ≤ state.cacheBudgetBytes
    ∨ ∃ id, state.selectedId = some id ∧ state.shapeOrder = [id]
  evicted : ∀ id ∈ state.evictedIds, id ∉ state.shapes
  distinct : state.evictedIds.Nodup

theorem Sound.weight (h : Sound decompress state) :
    state.cachedBytes
      ≤ max state.cacheBudgetBytes MAX_CURSOR_CACHE_BYTES := by
  rcases h.within with hwithin | ⟨id, -, halone⟩
  · exact le_max_of_le_left hwithin
  · exact le_max_of_le_right (h.toCached.alone halone)

theorem mem_recordEviction {other : Nat}
    (h : other ∈ (state.recordEviction id).evictedIds) :
    other ∈ state.evictedIds ∨ other = id := by
  have hmem := List.mem_of_mem_drop h
  rcases List.mem_append.1 hmem with hold | hnew
  · exact .inl (List.mem_of_mem_erase hold)
  · exact .inr (List.mem_singleton.1 hnew)

theorem nodup_recordEviction (h : state.evictedIds.Nodup) :
    (state.recordEviction id).evictedIds.Nodup := by
  apply List.Nodup.sublist (List.drop_sublist _ _)
  refine List.nodup_append.2 ⟨h.erase id, List.nodup_singleton id, ?_⟩
  intro other hother out hout hsame
  rw [hsame, List.mem_singleton.1 hout] at hother
  exact h.not_mem_erase hother

/-- The loop takes off the front of the order until the cache is within its
budget, or meets the selected shape at the back. -/
theorem trimFrom_sound {selected : Nat} (front : List Nat)
    (state : CursorState)
    (hcached : Cached decompress
      { state with shapeOrder := front ++ [selected] })
    (hselected : state.selectedId = some selected)
    (hshown : Shown decompress state selected)
    (hevicted : ∀ id ∈ state.evictedIds, id ∉ state.shapes)
    (hdistinct : state.evictedIds.Nodup) :
    Sound decompress (CursorState.trimFrom (front ++ [selected]) state)
      ∧ (CursorState.trimFrom (front ++ [selected]) state).selectedId
        = some selected := by
  have hshows : ∀ id, state.selectedId = some id → Shown decompress state id := by
    intro id hid
    rw [hselected, Option.some.injEq] at hid
    exact hid ▸ hshown
  induction front generalizing state with
  | nil =>
    rw [List.nil_append, CursorState.trimFrom]
    by_cases hwithin : state.cachedBytes ≤ state.cacheBudgetBytes
    · rw [if_pos hwithin]
      exact ⟨⟨hcached, hshows, .inl hwithin, hevicted, hdistinct⟩, hselected⟩
    · rw [if_neg hwithin, if_pos hselected]
      exact ⟨⟨hcached, hshows, .inr ⟨selected, hselected, rfl⟩, hevicted, hdistinct⟩,
        hselected⟩
  | cons id front ih =>
    rw [List.cons_append, CursorState.trimFrom]
    by_cases hwithin : state.cachedBytes ≤ state.cacheBudgetBytes
    · rw [if_pos hwithin]
      exact ⟨⟨hcached, hshows, .inl hwithin, hevicted, hdistinct⟩, hselected⟩
    have hnodup : (id :: (front ++ [selected])).Nodup :=
      hcached.order.nodup_iff.2 state.shapes.keys_nodup
    have hother : selected ≠ id := by
      rintro rfl
      exact (List.nodup_cons.1 hnodup).1 (by simp)
    have hmem : id ∈ state.shapes :=
      hcached.mem_order.1 List.mem_cons_self
    obtain ⟨entry, hlookup⟩ := Option.isSome_iff_exists.1
      (AList.lookup_isSome.2 hmem)
    have hunselected : state.selectedId ≠ some id := by
      rw [hselected]
      exact fun hsame => hother (Option.some.inj hsame)
    rw [if_neg hwithin, if_neg hunselected, hlookup]
    have herased := hcached.erase hlookup
    have horder : (id :: (front ++ [selected])).erase id
        = front ++ [selected] := List.erase_cons_head _ _
    simp only [List.cons_append, horder] at herased
    have hshown' : Shown decompress
        ({ state with
          shapes := state.shapes.erase id
          cachedBytes :=
            state.cachedBytes - entry.bytes }.recordEviction id) selected := by
      obtain ⟨kept, rgba, hkept, hdecodes, hshape⟩ := hshown
      refine ⟨kept, rgba, ?_, hdecodes, hshape⟩
      exact (AList.lookup_erase_ne hother).trans hkept
    apply ih
    · exact ⟨herased.order, herased.bytes, herased.fine⟩
    · exact hselected
    · exact hshown'
    · intro out hout hcontra
      obtain ⟨hne, hin⟩ := AList.mem_erase.1 hcontra
      rcases mem_recordEviction hout with hold | hnew
      · exact hevicted out hold hin
      · exact hne hnew
    · exact nodup_recordEviction hdistinct
    · intro out hsame
      have hout : selected = out :=
        Option.some.inj (hselected.symm.trans hsame)
      exact hout ▸ hshown'

/-- A decoded shape comes in, and the cache makes room for it. -/
theorem adopt_sound (h : Sound decompress state) {rgba : List UInt8}
    (hbudget : state.cacheBudgetBytes + MAX_CURSOR_CACHE_BYTES ≤ usizeMax)
    (hrgba : decodeColors decompress entry.compressedColors
      entry.expectedRgbaLen = some rgba)
    (hlight : entry.bytes ≤ MAX_CURSOR_CACHE_BYTES) :
    Sound decompress (state.adopt entry rgba)
      ∧ (state.adopt entry rgba).selectedId = some entry.id := by
  obtain ⟨hremoved, habsent, hless⟩ :=
    h.toCached.removeCachedEntry entry.id
  have hroom : (state.removeCachedEntry entry.id).cachedBytes + entry.bytes
      ≤ usizeMax := by
    have hweight := h.weight
    have htwice : MAX_CURSOR_CACHE_BYTES + MAX_CURSOR_CACHE_BYTES ≤ usizeMax := by
      norm_num [MAX_CURSOR_CACHE_BYTES, usizeMax]
    rcases max_choice state.cacheBudgetBytes MAX_CURSOR_CACHE_BYTES with
      hmax | hmax <;>
    · rw [hmax] at hweight
      omega
  have hfine : entry.Fine decompress entry.id := ⟨rfl, ⟨rgba, hrgba⟩, hlight⟩
  have hinserted := hremoved.insert habsent hfine hroom
  rw [CursorState.adopt, CursorState.trimCache]
  apply trimFrom_sound (state.removeCachedEntry entry.id).shapeOrder
  · exact ⟨hinserted.order, hinserted.bytes, hinserted.fine⟩
  · rfl
  · exact ⟨entry, rgba, AList.lookup_insert _, hrgba, rfl⟩
  · intro out hout hcontra
    rw [CursorState.removeEvictionHistory, removeCachedEntry_evictedIds] at hout
    rcases (AList.mem_insert _).1 hcontra with hsame | hkept
    · rw [hsame] at hout
      exact h.distinct.not_mem_erase hout
    · exact h.evicted out (List.mem_of_mem_erase hout)
        (mem_of_removeCachedEntry hkept)
  · rw [CursorState.removeEvictionHistory, removeCachedEntry_evictedIds]
    exact h.distinct.erase entry.id

/-- An id that is not cached leaves everything as it is, and one that is
cached is shown and goes to the back of the order. -/
theorem applyId_cases (h : Cached decompress state) (id : Nat) :
    (id ∉ state.shapes ∧ ∃ reason,
        state.applyId decompress id = (state, .CacheMiss id reason))
      ∨ ∃ entry rgba, state.shapes.lookup id = some entry
        ∧ decodeColors decompress entry.compressedColors entry.expectedRgbaLen
          = some rgba
        ∧ state.applyId decompress id
          = ({ state with
                shapeOrder := state.shapeOrder.erase id ++ [id]
                selectedId := some id
                selectedShape := some (entry.shape rgba) },
              .Selected (entry.shape rgba)) := by
  rw [CursorState.applyId]
  rcases hlookup : state.shapes.lookup id with _ | entry
  · exact .inl ⟨AList.lookup_eq_none.1 hlookup, _, rfl⟩
  · obtain ⟨-, ⟨rgba, hrgba⟩, -⟩ := h.fine id entry hlookup
    refine .inr ⟨entry, rgba, rfl, hrgba, ?_⟩
    simp only [hrgba]
    rfl

theorem applyId_sound (h : Sound decompress state) (id : Nat) :
    Sound decompress (state.applyId decompress id).1 := by
  rcases applyId_cases h.toCached id with
    ⟨-, reason, hmiss⟩ | ⟨entry, rgba, hlookup, hrgba, hselected⟩
  · rw [hmiss]
    exact h
  · have hmem : id ∈ state.shapeOrder := by
      rw [h.mem_order, ← AList.lookup_isSome, hlookup]
      rfl
    rw [hselected]
    refine ⟨⟨?_, h.bytes, h.fine⟩, ?_, ?_, h.evicted, h.distinct⟩
    · exact (List.perm_append_singleton id _).trans
        ((List.perm_cons_erase hmem).symm.trans h.order)
    · intro out hout
      have hsame : id = out := Option.some.inj hout
      rw [← hsame]
      exact ⟨entry, rgba, hlookup, hrgba, rfl⟩
    · rcases h.within with hwithin | ⟨out, hout, halone⟩
      · exact .inl hwithin
      · refine .inr ⟨id, rfl, ?_⟩
        rw [halone, List.mem_singleton] at hmem
        show state.shapeOrder.erase id ++ [id] = [id]
        rw [halone, hmem, List.erase_cons_head, List.nil_append]

theorem applyData_sound (h : Sound decompress state)
    (hbudget : state.cacheBudgetBytes + MAX_CURSOR_CACHE_BYTES ≤ usizeMax)
    (data : CursorData) :
    Sound decompress (state.applyData decompress data).1 := by
  rw [CursorState.applyData]
  by_cases haccepted : (!CursorState.acceptable data) = true
  · rw [if_pos haccepted]
    exact h
  by_cases hsize : (data.colors.isEmpty
      || data.colors.length > MAX_CURSOR_CACHE_BYTES) = true
  · rw [if_neg haccepted, if_pos hsize]
    exact h
  rw [if_neg haccepted, if_neg hsize]
  have hlight : data.entry.bytes ≤ MAX_CURSOR_CACHE_BYTES := by
    simp only [Bool.or_eq_true, decide_eq_true_eq, not_or, Nat.not_lt] at hsize
    exact hsize.2
  rcases hrgba : decodeColors decompress data.colors
    (expectedLen data.width data.height) with _ | rgba
  · exact h
  · exact (adopt_sound h hbudget hrgba hlight).1

-- ==================================== runs

theorem trimFrom_cacheBudgetBytes (order : List Nat) (state : CursorState) :
    (CursorState.trimFrom order state).cacheBudgetBytes
      = state.cacheBudgetBytes := by
  induction order generalizing state with
  | nil => rfl
  | cons id order ih =>
    rw [CursorState.trimFrom]
    split
    · rfl
    · split
      · rfl
      · split
        · exact ih _
        · exact ih _

theorem adopt_cacheBudgetBytes (state : CursorState) (rgba : List UInt8) :
    (state.adopt entry rgba).cacheBudgetBytes = state.cacheBudgetBytes := by
  rw [CursorState.adopt, CursorState.trimCache, trimFrom_cacheBudgetBytes]
  exact removeCachedEntry_cacheBudgetBytes

inductive CursorOp where
  | data (data : CursorData)
  | id (id : Nat)
  | position (x y : Int)
deriving DecidableEq, Repr

def cursorStep (decompress : Decompress) (state : CursorState) :
    CursorOp → CursorState
  | .data data => (state.applyData decompress data).1
  | .id id => (state.applyId decompress id).1
  | .position x y => (state.applyPosition x y).1

/-- A step of a cache whose budget leaves room for one more message. -/
theorem cursorStep_sound {budget : Nat}
    (hroom : budget + MAX_CURSOR_CACHE_BYTES ≤ usizeMax)
    (state : CursorState) (op : CursorOp)
    (h : Sound decompress state ∧ state.cacheBudgetBytes = budget) :
    Sound decompress (cursorStep decompress state op)
      ∧ (cursorStep decompress state op).cacheBudgetBytes = budget := by
  obtain ⟨hsound, hbudget⟩ := h
  cases op with
  | data data =>
    refine ⟨applyData_sound hsound (hbudget ▸ hroom) data, ?_⟩
    rw [cursorStep, CursorState.applyData]
    split
    · exact hbudget
    · split
      · exact hbudget
      · split
        · exact hbudget
        · exact (adopt_cacheBudgetBytes state _).trans hbudget
  | id id =>
    refine ⟨applyId_sound hsound id, ?_⟩
    rcases applyId_cases hsound.toCached id with
      ⟨-, reason, hmiss⟩ | ⟨entry, rgba, -, -, hselected⟩
    · rw [cursorStep, hmiss]
      exact hbudget
    · rw [cursorStep, hselected]
      exact hbudget
  | position x y =>
    rw [cursorStep, CursorState.applyPosition]
    split
    · exact ⟨hsound, hbudget⟩
    · exact ⟨⟨⟨hsound.order, hsound.bytes, hsound.fine⟩, hsound.selected,
        hsound.within, hsound.evicted, hsound.distinct⟩, hbudget⟩

/-- After every run the cache is sound for its budget. -/
theorem exec_sound {budget : Nat}
    (hroom : budget + MAX_CURSOR_CACHE_BYTES ≤ usizeMax)
    (ops : List CursorOp) :
    Sound decompress
        (exec (cursorStep decompress) (.withCacheBudget budget) ops)
      ∧ (exec (cursorStep decompress) (.withCacheBudget budget)
        ops).cacheBudgetBytes = budget := by
  apply exec_invariant (cursorStep_sound hroom)
  refine ⟨⟨⟨List.Perm.refl _, rfl, ?_⟩, ?_, .inl (Nat.zero_le _), ?_,
    List.nodup_nil⟩, rfl⟩
  · intro id entry hlookup
    cases hlookup
  · intro id hselected
    cases hselected
  · intro id hevicted
    cases hevicted

/-- However the shapes come in and are chosen, the order names what is cached,
the bytes are those of the cached messages, the selected shape is cached and
shown, the cache is within its budget but for it, nothing that was evicted is
cached, and an id that is missed changes nothing. -/
theorem cursorCache_sound (decompress : Decompress) (ops : List CursorOp) :
    Sound decompress (exec (cursorStep decompress) .new ops)
      ∧ (exec (cursorStep decompress) .new ops).cacheBudgetBytes
        = MAX_CURSOR_CACHE_BYTES
      ∧ ∀ id missed reason,
        ((exec (cursorStep decompress) .new ops).applyId decompress id).2
            = .CacheMiss missed reason →
          ((exec (cursorStep decompress) .new ops).applyId decompress id).1
              = exec (cursorStep decompress) .new ops
            ∧ missed ∉ (exec (cursorStep decompress) .new ops).shapes := by
  have hroom : MAX_CURSOR_CACHE_BYTES + MAX_CURSOR_CACHE_BYTES ≤ usizeMax := by
    norm_num [MAX_CURSOR_CACHE_BYTES, usizeMax]
  have hrun : Sound decompress (exec (cursorStep decompress) .new ops)
      ∧ (exec (cursorStep decompress) .new ops).cacheBudgetBytes
        = MAX_CURSOR_CACHE_BYTES := exec_sound hroom ops
  refine ⟨hrun.1, hrun.2, fun id missed reason hmiss => ?_⟩
  rcases applyId_cases hrun.1.toCached id with
    ⟨habsent, reason', hmissed⟩ | ⟨entry, rgba, -, -, hselected⟩
  · rw [hmissed] at hmiss ⊢
    cases hmiss
    exact ⟨rfl, habsent⟩
  · rw [hselected] at hmiss
    cases hmiss

-- ======================= least recently used

/-- An id is used: a shape is accepted under it, or it is selected. -/
def used (decompress : Decompress) (state : CursorState) :
    CursorOp → Option Nat
  | .data data =>
    if (state.applyData decompress data).2 then some data.id else none
  | .id id =>
    match (state.applyId decompress id).2 with
    | .Selected _ => some id
    | .CacheMiss .. => none
  | .position .. => none

/-- A cache, and all ids used so far, the last one last. -/
def recentStep (decompress : Decompress) (s : CursorState × List Nat)
    (op : CursorOp) : CursorState × List Nat :=
  (cursorStep decompress s.1 op,
    (used decompress s.1 op).elim s.2 fun id =>
      s.2.filter (· != id) ++ [id])

/-- What the loop keeps is the back of the order. -/
theorem trimFrom_suffix {selected : Nat} (front : List Nat)
    (state : CursorState) (hselected : state.selectedId = some selected)
    (hfront : selected ∉ front) :
    (CursorState.trimFrom (front ++ [selected]) state).shapeOrder
      <:+ front ++ [selected] := by
  induction front generalizing state with
  | nil =>
    rw [List.nil_append, CursorState.trimFrom, if_pos hselected]
    split <;> exact List.suffix_refl _
  | cons id front ih =>
    have hne : state.selectedId ≠ some id := by
      rw [hselected]
      rintro ⟨⟩
      exact hfront List.mem_cons_self
    have hrest := fun s hs => (ih s hs fun h =>
      hfront (List.mem_cons_of_mem _ h)).trans (List.suffix_cons id _)
    rw [List.cons_append, CursorState.trimFrom, if_neg hne]
    split
    · exact List.suffix_refl _
    · split <;> exact hrest _ hselected

theorem adopt_suffix (h : Cached decompress state) (rgba : List UInt8) :
    (state.adopt entry rgba).shapeOrder
      <:+ state.shapeOrder.erase entry.id ++ [entry.id] := by
  have horder : (state.removeCachedEntry entry.id).shapeOrder
      = state.shapeOrder.erase entry.id := by
    rw [CursorState.removeCachedEntry]
    split
    · rfl
    next hnone =>
      refine (List.erase_of_not_mem fun hmem => ?_).symm
      exact AList.lookup_eq_none.1 hnone (h.mem_order.1 hmem)
  rw [← horder, CursorState.adopt, CursorState.trimCache]
  apply trimFrom_suffix _ _ rfl
  rw [horder]
  exact (h.order.nodup_iff.2 state.shapes.keys_nodup).not_mem_erase

theorem recentStep_suffix {s : CursorState × List Nat}
    (h : Cached decompress s.1) (hs : s.1.shapeOrder <:+ s.2)
    (op : CursorOp) :
    (recentStep decompress s op).1.shapeOrder
      <:+ (recentStep decompress s op).2 := by
  have huse : ∀ id, s.1.shapeOrder.erase id ++ [id]
      <:+ s.2.filter (· != id) ++ [id] := by
    intro id
    have hnodup := h.order.nodup_iff.2 s.1.shapes.keys_nodup
    obtain ⟨old, hold⟩ := hs.filter (· != id)
    rw [hnodup.erase_eq_filter, ← hold, List.append_assoc]
    exact List.suffix_append _ _
  cases op with
  | data data =>
    simp only [recentStep, cursorStep, used, CursorState.applyData]
    split
    · exact hs
    split
    · exact hs
    split
    · exact hs
    · exact (adopt_suffix h _).trans (huse data.id)
  | id id =>
    rcases applyId_cases h id with
      ⟨-, reason, hmiss⟩ | ⟨entry, rgba, -, -, hselected⟩
    · simp only [recentStep, cursorStep, used, hmiss]
      exact hs
    · simp only [recentStep, cursorStep, used, hselected]
      exact huse id
  | position x y =>
    simp only [recentStep, cursorStep, used, CursorState.applyPosition]
    split <;> exact hs

/-- The cached ids are the last ones used, in the order of their last
use. -/
theorem order_recent (decompress : Decompress) (ops : List CursorOp) :
    (exec (recentStep decompress) (.new, []) ops).1.shapeOrder
      <:+ (exec (recentStep decompress) (.new, []) ops).2 := by
  have hroom : MAX_CURSOR_CACHE_BYTES + MAX_CURSOR_CACHE_BYTES ≤ usizeMax := by
    norm_num [MAX_CURSOR_CACHE_BYTES, usizeMax]
  refine (@exec_invariant _ _ (recentStep decompress)
    (fun s => (Sound decompress s.1
      ∧ s.1.cacheBudgetBytes = MAX_CURSOR_CACHE_BYTES)
      ∧ s.1.shapeOrder <:+ s.2) ?_ _ ops
    ⟨exec_sound hroom [], List.suffix_refl _⟩).2
  exact fun s op h => ⟨cursorStep_sound hroom s.1 op h.1,
    recentStep_suffix h.1.1.toCached h.2 op⟩

end RemoteDesk.RustDesk
