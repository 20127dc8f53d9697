/-
What the primitives of the terminal keep
(rustdesk_ffi/src/terminal_core/terminal.rs).

# Shape

A terminal has a shape (`Shape`): its cursor and its lower margin are on the
screen, every row has as many cells as there are columns and a flag, and the
view is not below the screen. Nothing that is done with a terminal breaks it.

# Steps

`Keeps` says what a call keeps beside the shape: the size, the order of the
margins, the screen within the buffer, and the rows of the view that it does
not mark. `Follows` adds what a call keeps that does not change the screen.
-/
import RemoteDesk.TerminalCore.Performer

namespace RemoteDesk.TerminalCore

open Lib

-- =================================== shape

structure Shape (t : Terminal) : Prop where
  cols : 0 < t.cols
  rows : 0 < t.rows
  cursorX : t.cursorX ≤ t.cols
  cursorY : t.cursorY < t.rows
  margin : t.scrollBottom < t.rows
  flags : t.wrappedRows.length = t.buffer.length
  width : ∀ row ∈ t.buffer, row.length = t.cols
  view : t.viewTop ≤ t.screenTop

/-- The buffer holds the whole screen. -/
def Filled (t : Terminal) : Prop := t.screenTop + t.rows ≤ t.buffer.length

/-- The margins are in order. -/
def Ordered (t : Terminal) : Prop := t.scrollTop ≤ t.scrollBottom

/-- A row that is not marked was not marked before, and shows what it did. -/
def Repaints (t t' : Terminal) : Prop :=
  ∀ row < t'.rows, row ∉ t'.dirtyRows →
    row ∉ t.dirtyRows ∧ t'.viewRow row = t.viewRow row

/-- What a call keeps of any screen; `scrolls` says that it moves the whole
main screen, and `seen` that the rows of the view it changes are among those
it marks. -/
structure Keeps (scrolls seen : Prop) (t t' : Terminal) : Prop where
  shape : Shape t'
  cols : t'.cols = t.cols
  rows : t'.rows = t.rows
  ordered : Ordered t → Ordered t'
  filled : (scrolls → t.rows ≤ MAX_SCROLLBACK) → Filled t → Filled t'
  repaints : seen → Repaints t t'

/-- What a call keeps that stays on its screen. -/
structure Follows (scrolls seen : Prop) (t t' : Terminal) : Prop extends
    Keeps scrolls seen t t' where
  alt : t'.altActive = t.altActive
  main : t'.main = t.main
  top : t.altActive = true → t.screenTop = 0 → t'.screenTop = 0

variable {t : Terminal} {row : Nat}

theorem Repaints.trans {t₁ t₂ : Terminal} (h : Repaints t t₁)
    (h' : Repaints t₁ t₂) (hrows : t₂.rows = t₁.rows) : Repaints t t₂ := by
  intro row hrow hclean
  obtain ⟨hclean₁, hsame₁⟩ := h' row hrow hclean
  obtain ⟨hclean₂, hsame₂⟩ := h row (hrows ▸ hrow) hclean₁
  exact ⟨hclean₂, hsame₁.trans hsame₂⟩

/-- Where every row is marked, nothing can be missed. -/
theorem Repaints.all {t' : Terminal}
    (h : ∀ row < t'.rows, row ∈ t'.dirtyRows) : Repaints t t' :=
  fun row hrow hclean => absurd (h row hrow) hclean

section Follows

variable {scrolls seen scrolls' seen' : Prop} {t₁ t₂ : Terminal}

theorem Keeps.mono (h : Keeps scrolls seen t t₁) (hscrolls : scrolls → scrolls')
    (hseen : seen' → seen) : Keeps scrolls' seen' t t₁ where
  shape := h.shape
  cols := h.cols
  rows := h.rows
  ordered := h.ordered
  filled hroom := h.filled fun hs => hroom (hscrolls hs)
  repaints hs := h.repaints (hseen hs)

theorem Keeps.trans (h : Keeps scrolls seen t t₁)
    (h' : Keeps scrolls' seen' t₁ t₂) :
    Keeps (scrolls ∨ scrolls') (seen ∧ seen') t t₂ where
  shape := h'.shape
  cols := h'.cols.trans h.cols
  rows := h'.rows.trans h.rows
  ordered hordered := h'.ordered (h.ordered hordered)
  filled hroom hfilled := by
    apply h'.filled
    · intro hs
      rw [h.rows]
      exact hroom (.inr hs)
    · exact h.filled (fun hs => hroom (.inl hs)) hfilled
  repaints hs := (h.repaints hs.1).trans (h'.repaints hs.2) h'.rows

theorem Follows.mono (h : Follows scrolls seen t t₁) (hscrolls : scrolls → scrolls')
    (hseen : seen' → seen) : Follows scrolls' seen' t t₁ where
  toKeeps := h.toKeeps.mono hscrolls hseen
  alt := h.alt
  main := h.main
  top := h.top

theorem Follows.trans (h : Follows scrolls seen t t₁)
    (h' : Follows scrolls' seen' t₁ t₂) :
    Follows (scrolls ∨ scrolls') (seen ∧ seen') t t₂ where
  toKeeps := h.toKeeps.trans h'.toKeeps
  alt := h'.alt.trans h.alt
  main := h'.main.trans h.main
  top halt htop := h'.top (h.alt.trans halt) (h.top halt htop)

/-- Where every row is marked, nothing has to be seen. -/
theorem Follows.marked_all (h : Follows scrolls seen t t₁)
    (hall : ∀ row < t₁.rows, row ∈ t₁.dirtyRows) : Follows scrolls True t t₁ where
  shape := h.shape
  cols := h.cols
  rows := h.rows
  ordered := h.ordered
  filled := h.filled
  alt := h.alt
  main := h.main
  top := h.top
  repaints _ := Repaints.all hall

end Follows

-- =================================== marks

theorem mem_markDirty {row' : Nat} (h : row' ∈ t.dirtyRows) :
    row' ∈ (t.markDirty row).dirtyRows := by
  show row' ∈ if _ then _ else _
  split
  · exact List.mem_append_left _ h
  · exact h

theorem markDirty_self (h : row < t.rows) :
    row ∈ (t.markDirty row).dirtyRows := by
  show row ∈ if _ then _ else _
  by_cases hmem : row ∈ t.dirtyRows
  · split
    · exact List.mem_append_left _ hmem
    · exact hmem
  · rw [if_pos (by simp [h, hmem])]
    exact List.mem_append_right _ (List.mem_singleton_self row)

theorem mem_markCursorMoved {oldY : Nat}
    (h : row ∈ t.dirtyRows) : row ∈ (t.markCursorMoved oldY).dirtyRows :=
  mem_markDirty (mem_markDirty h)

theorem mem_markAllDirty (h : row < t.rows) : row ∈ t.markAllDirty.dirtyRows :=
  List.mem_range.2 h

-- =========================== the same grid

/-- Two terminals whose buffer and tops are the same. -/
structure SameGrid (t t' : Terminal) : Prop where
  cols : t'.cols = t.cols
  rows : t'.rows = t.rows
  buffer : t'.buffer = t.buffer
  wrappedRows : t'.wrappedRows = t.wrappedRows
  screenTop : t'.screenTop = t.screenTop
  viewTop : t'.viewTop = t.viewTop
  alt : t'.altActive = t.altActive
  main : t'.main = t.main

/-- Other attributes would show behind the end of the buffer, where every row
of the view is marked. -/
def Unseen (t : Terminal) (attrs : CellAttrs) : Prop :=
  attrs = t.attrs
    ∨ ∀ row < t.rows, t.buffer.length ≤ t.viewTop + row → row ∈ t.dirtyRows

theorem SameGrid.viewRow {t' : Terminal} (h : SameGrid t t')
    (hunseen : Unseen t t'.attrs) (hrow : row < t.rows)
    (hclean : row ∉ t.dirtyRows) : t'.viewRow row = t.viewRow row := by
  unfold Terminal.viewRow Terminal.shownRow
  rw [h.buffer, h.viewTop, h.cols]
  rcases hunseen with hattrs | hmarked
  · rw [hattrs]
  · have hwithin : t.viewTop + row < t.buffer.length := by
      by_contra hbehind
      exact hclean (hmarked row hrow (Nat.le_of_not_lt hbehind))
    rw [List.getElem?_eq_getElem hwithin]

/-- A call that moves the cursor or sets a mode. -/
theorem SameGrid.follows {t' : Terminal} (hgrid : SameGrid t t') (h : Shape t)
    (hcursorX : t'.cursorX ≤ t.cols) (hcursorY : t'.cursorY < t.rows)
    (hmargin : t'.scrollBottom < t.rows) (hordered : Ordered t → Ordered t')
    (hdirty : ∀ row ∈ t.dirtyRows, row ∈ t'.dirtyRows) :
    Follows False (Unseen t t'.attrs) t t' where
  shape :=
    { cols := hgrid.cols ▸ h.cols
      rows := hgrid.rows ▸ h.rows
      cursorX := hgrid.cols ▸ hcursorX
      cursorY := hgrid.rows ▸ hcursorY
      margin := hgrid.rows ▸ hmargin
      flags := by rw [hgrid.wrappedRows, hgrid.buffer, h.flags]
      width := by
        rw [hgrid.buffer, hgrid.cols]
        exact h.width
      view := by
        rw [hgrid.viewTop, hgrid.screenTop]
        exact h.view }
  cols := hgrid.cols
  rows := hgrid.rows
  ordered := hordered
  filled _ hfilled := by
    unfold Filled
    rw [hgrid.screenTop, hgrid.rows, hgrid.buffer]
    exact hfilled
  alt := hgrid.alt
  main := hgrid.main
  top _ htop := hgrid.screenTop.trans htop
  repaints hunseen row hrow hclean := by
    rw [hgrid.rows] at hrow
    have hclean' : row ∉ t.dirtyRows := fun hmem => hclean (hdirty row hmem)
    exact ⟨hclean', hgrid.viewRow hunseen hrow hclean'⟩

-- =============================== redrawing

/-- A terminal but for its grid and its marks. -/
def Terminal.frame (t : Terminal) : Terminal :=
  { t with
    buffer := []
    wrappedRows := []
    dirtyRows := [] }

/-- Only the rows that are touched change; others may come in behind the end,
where they show what was there. -/
structure Redrawn (touched : Nat → Prop) (t t' : Terminal) : Prop where
  same : t'.frame = t.frame
  length : t.buffer.length ≤ t'.buffer.length
  flags : t'.wrappedRows.length = t'.buffer.length
  width : ∀ row ∈ t'.buffer, row.length = t.cols
  dirty : ∀ row ∈ t.dirtyRows, row ∈ t'.dirtyRows
  kept : ∀ absRow, ¬ touched absRow → t'.shownRow absRow = t.shownRow absRow

section Redrawn

variable {touched : Nat → Prop} {t₁ t₂ : Terminal}

theorem Redrawn.cols (h : Redrawn touched t t₁) : t₁.cols = t.cols :=
  (congrArg Terminal.cols h.same :)

theorem Redrawn.rows (h : Redrawn touched t t₁) : t₁.rows = t.rows :=
  (congrArg Terminal.rows h.same :)

theorem Redrawn.screenTop (h : Redrawn touched t t₁) :
    t₁.screenTop = t.screenTop :=
  (congrArg Terminal.screenTop h.same :)

theorem Redrawn.viewTop (h : Redrawn touched t t₁) : t₁.viewTop = t.viewTop :=
  (congrArg Terminal.viewTop h.same :)

theorem Redrawn.cursorX (h : Redrawn touched t t₁) : t₁.cursorX = t.cursorX :=
  (congrArg Terminal.cursorX h.same :)

theorem Redrawn.cursorY (h : Redrawn touched t t₁) : t₁.cursorY = t.cursorY :=
  (congrArg Terminal.cursorY h.same :)

theorem Redrawn.scrollTop (h : Redrawn touched t t₁) :
    t₁.scrollTop = t.scrollTop :=
  (congrArg Terminal.scrollTop h.same :)

theorem Redrawn.scrollBottom (h : Redrawn touched t t₁) :
    t₁.scrollBottom = t.scrollBottom :=
  (congrArg Terminal.scrollBottom h.same :)

theorem Redrawn.attrs (h : Redrawn touched t t₁) : t₁.attrs = t.attrs :=
  (congrArg Terminal.attrs h.same :)

theorem Shape.redrawn (h : Shape t) : Redrawn touched t t :=
  ⟨rfl, le_rfl, h.flags, h.width, fun _ hrow => hrow, fun _ _ => rfl⟩

theorem Redrawn.trans (h : Redrawn touched t t₁) (h' : Redrawn touched t₁ t₂) :
    Redrawn touched t t₂ where
  same := h'.same.trans h.same
  length := Nat.le_trans h.length h'.length
  flags := h'.flags
  width := by
    rw [← h.cols]
    exact h'.width
  dirty row hrow := h'.dirty row (h.dirty row hrow)
  kept absRow hrow := (h'.kept absRow hrow).trans (h.kept absRow hrow)

theorem Redrawn.shape (h : Redrawn touched t t₁) (hshape : Shape t) :
    Shape t₁ where
  cols := h.cols ▸ hshape.cols
  rows := h.rows ▸ hshape.rows
  cursorX := by
    rw [h.cols, h.cursorX]
    exact hshape.cursorX
  cursorY := by
    rw [h.rows, h.cursorY]
    exact hshape.cursorY
  margin := by
    rw [h.rows, h.scrollBottom]
    exact hshape.margin
  flags := h.flags
  width := by
    rw [h.cols]
    exact h.width
  view := by
    rw [h.viewTop, h.screenTop]
    exact hshape.view

theorem Redrawn.markDirty (h : Redrawn touched t t₁) (row : Nat) :
    Redrawn touched t (t₁.markDirty row) where
  same := h.same
  length := h.length
  flags := h.flags
  width := h.width
  dirty row' hrow := mem_markDirty (h.dirty row' hrow)
  kept := h.kept

-- The rows that are pushed show what a row behind the end does.
theorem shownRow_ensureAbsRow (t : Terminal) (absRow absRow' : Nat) :
    (t.ensureAbsRow absRow).shownRow absRow' = t.shownRow absRow' := by
  unfold Terminal.shownRow Terminal.ensureAbsRow
  dsimp only
  by_cases hold : absRow' < t.buffer.length
  · rw [List.getElem?_append_left hold]
  · rw [List.getElem?_append_right (by omega),
      List.getElem?_eq_none (l := t.buffer) (by omega), List.getElem?_replicate]
    by_cases hnew : absRow' - t.buffer.length < absRow + 1 - t.buffer.length
    · rw [if_pos hnew]
      simp [blankRow]
    · rw [if_neg hnew]

theorem Redrawn.ensureAbsRow (h : Redrawn touched t t₁) (absRow : Nat) :
    Redrawn touched t (t₁.ensureAbsRow absRow)
      ∧ absRow < (t₁.ensureAbsRow absRow).buffer.length := by
  constructor
  · refine ⟨h.same, ?_, ?_, ?_, h.dirty, ?_⟩
    · show _ ≤ (t₁.buffer ++ _).length
      rw [List.length_append]
      exact Nat.le_add_right_of_le h.length
    · show (t₁.wrappedRows ++ _).length = (t₁.buffer ++ _).length
      rw [List.length_append, List.length_append, h.flags,
        List.length_replicate, List.length_replicate]
    · intro row hrow
      rcases List.mem_append.1 hrow with hrow | hrow
      · exact h.width row hrow
      · rw [List.eq_of_mem_replicate hrow, length_blankRow, h.cols]
    · intro absRow' hrow
      rw [shownRow_ensureAbsRow, h.kept absRow' hrow]
  · show absRow < (t₁.buffer ++ _).length
    rw [List.length_append, List.length_replicate]
    omega

variable {absRow : Nat}

/-- A row within the buffer can be rewritten. -/
theorem Redrawn.editRow (h : Redrawn touched t t₁) (edit : Row → Option Row)
    (habs : absRow < t₁.buffer.length) (htouched : touched absRow)
    (hedit : ∀ row : Row, row.length = t.cols →
      ∃ row', edit row = some row' ∧ row'.length = t.cols) :
    ∃ t₂, t₁.editRow absRow edit = some t₂ ∧ Redrawn touched t t₂
      ∧ t₂.buffer.length = t₁.buffer.length := by
  obtain ⟨row', hrow', hlength⟩ := hedit t₁.buffer[absRow]
    (h.width _ (List.getElem_mem habs))
  refine ⟨{ t₁ with buffer := t₁.buffer.set absRow row' }, ?_,
    ⟨h.same, ?_, ?_, ?_, h.dirty, ?_⟩, List.length_set⟩
  · rw [Terminal.editRow, List.getElem?_eq_getElem habs]
    show (edit t₁.buffer[absRow] >>= _) = _
    rw [hrow']
    rfl
  · show _ ≤ (t₁.buffer.set absRow row').length
    rw [List.length_set]
    exact h.length
  · show _ = (t₁.buffer.set absRow row').length
    rw [List.length_set]
    exact h.flags
  · intro row hrow
    rcases List.mem_or_eq_of_mem_set hrow with hrow | rfl
    · exact h.width row hrow
    · exact hlength
  · intro other hother
    have hne : absRow ≠ other := fun hsame => hother (hsame ▸ htouched)
    rw [← h.kept other hother]
    unfold Terminal.shownRow
    dsimp only
    rw [List.getElem?_set_ne hne]

theorem Redrawn.setWrapped (h : Redrawn touched t t₁)
    (habs : absRow < t₁.buffer.length) (wrapped : Bool) :
    ∃ t₂, t₁.setWrapped absRow wrapped = some t₂ ∧ Redrawn touched t t₂
      ∧ t₂.buffer.length = t₁.buffer.length := by
  refine ⟨{ t₁ with wrappedRows := t₁.wrappedRows.set absRow wrapped }, ?_,
    ⟨h.same, h.length, ?_, h.width, h.dirty, h.kept⟩, rfl⟩
  · exact if_pos (by rw [h.flags]; exact habs)
  · show (t₁.wrappedRows.set absRow wrapped).length = _
    rw [List.length_set]
    exact h.flags

theorem Redrawn.blankAbsRow (h : Redrawn touched t t₁)
    (habs : absRow < t₁.buffer.length) (htouched : touched absRow) :
    ∃ t₂, t₁.blankAbsRow absRow = some t₂ ∧ Redrawn touched t t₂
      ∧ t₂.buffer.length = t₁.buffer.length := by
  obtain ⟨s, hs, hredrawn, hlength⟩ := h.editRow
    (fun _ => some (blankRow t₁.cols t₁.attrs)) habs htouched fun _ _ =>
      ⟨_, rfl, by rw [length_blankRow, h.cols]⟩
  obtain ⟨s', hs', hredrawn', hlength'⟩ := hredrawn.setWrapped
    (hlength ▸ habs) false
  refine ⟨s', ?_, hredrawn', hlength'.trans hlength⟩
  rw [Terminal.blankAbsRow, hs]
  exact hs'

theorem Redrawn.copyRow (h : Redrawn touched t t₁) {source target : Nat}
    (hsource : source < t₁.buffer.length) (htarget : target < t₁.buffer.length)
    (htouched : touched target) :
    ∃ t₂, t₁.copyRow source target = some t₂ ∧ Redrawn touched t t₂
      ∧ t₂.buffer.length = t₁.buffer.length := by
  obtain ⟨s, hs, hredrawn, hlength⟩ := h.editRow
    (fun _ => some t₁.buffer[source]) htarget htouched fun _ _ =>
      ⟨_, rfl, h.width _ (List.getElem_mem hsource)⟩
  have hflag : source < s.wrappedRows.length := by
    rw [hredrawn.flags, hlength]
    exact hsource
  obtain ⟨s', hs', hredrawn', hlength'⟩ := hredrawn.setWrapped
    (hlength ▸ htarget) s.wrappedRows[source]
  refine ⟨s', ?_, hredrawn', hlength'.trans hlength⟩
  rw [Terminal.copyRow, List.getElem?_eq_getElem hsource]
  show (t₁.editRow target _ >>= _) = _
  rw [hs]
  show (s.wrappedRows[source]? >>= _) = _
  rw [List.getElem?_eq_getElem hflag]
  exact hs'

/-- A loop of steps that redraw. -/
theorem Redrawn.foldlM {α : Type*} {f : Terminal → α → Option Terminal}
    {l : List α} (h : Redrawn touched t t₁)
    (hstep : ∀ a ∈ l, ∀ s, Redrawn touched t s →
      t₁.buffer.length ≤ s.buffer.length →
        ∃ s', f s a = some s' ∧ Redrawn touched t s'
          ∧ s.buffer.length ≤ s'.buffer.length) :
    ∃ t₂, l.foldlM f t₁ = some t₂ ∧ Redrawn touched t t₂
      ∧ t₁.buffer.length ≤ t₂.buffer.length := by
  apply foldlM_some
    (P := fun s => Redrawn touched t s ∧ t₁.buffer.length ≤ s.buffer.length)
    _ ⟨h, le_rfl⟩
  rintro a ha s ⟨hs, hlength⟩
  obtain ⟨s', hs', hredrawn, hgrown⟩ := hstep a ha s hs hlength
  exact ⟨s', hs', hredrawn, Nat.le_trans hlength hgrown⟩

end Redrawn

end RemoteDesk.TerminalCore
