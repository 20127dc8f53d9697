/-
The terminal never indexes outside its buffer
(rustdesk_ffi/src/terminal_core/terminal.rs).

# What goes wrong

`resize` puts the lower margin back to the last row and leaves the upper one
where it was. Behind a resize to fewer rows the margins are out of order, and
a reverse index blanks a row that the buffer need not have.

The scrollback is trimmed to a fixed number of rows. A screen that is taller
than that loses rows to it when a line feed moves it.
-/
import RemoteDesk.TerminalCore.Calls

namespace RemoteDesk.TerminalCore

open Lib

variable {t : Terminal}

/-- Where the cursor and the margins are, and what the buffer holds. -/
structure Safe (t : Terminal) : Prop where
  cursorX : t.cursorX ≤ t.cols
  cursorY : t.cursorY < t.rows
  margins : t.scrollTop ≤ t.scrollBottom
  margin : t.scrollBottom < t.rows
  flags : t.wrappedRows.length = t.buffer.length
  width : ∀ row ∈ t.buffer, row.length = t.cols
  cursorRow : t.screenTop + t.cursorY < t.buffer.length
  view : t.viewTop ≤ t.screenTop

/-- A terminal with a shape, its margins in order, that holds its screen. -/
structure Sound (t : Terminal) : Prop extends Shape t where
  ordered : Ordered t
  filled : Filled t

theorem Sound.safe (h : Sound t) : Safe t where
  cursorX := h.cursorX
  cursorY := h.cursorY
  margins := h.ordered
  margin := h.margin
  flags := h.flags
  width := h.width
  cursorRow := Nat.lt_of_lt_of_le
    (Nat.add_lt_add_left h.cursorY t.screenTop) h.filled
  view := h.view

-- ========================== the operations

theorem new_shape (cols rows : Nat) : Shape (.new cols rows) where
  cols := Nat.lt_of_lt_of_le Nat.one_pos (Nat.le_max_right cols 1)
  rows := Nat.lt_of_lt_of_le Nat.one_pos (Nat.le_max_right rows 1)
  cursorX := Nat.zero_le _
  cursorY := Nat.lt_of_lt_of_le Nat.one_pos (Nat.le_max_right rows 1)
  margin := Nat.sub_lt (Nat.lt_of_lt_of_le Nat.one_pos (Nat.le_max_right rows 1))
    Nat.one_pos
  flags := by
    show (List.replicate _ false).length = (List.replicate _ _).length
    rw [List.length_replicate, List.length_replicate]
  width row hrow := by
    rw [List.eq_of_mem_replicate hrow]
    exact length_blankRow _ _
  view := le_rfl

theorem new_sound (cols rows : Nat) : Sound (.new cols rows) where
  toShape := new_shape cols rows
  ordered := Nat.zero_le _
  filled := by
    show 0 + max rows 1 ≤ (List.replicate (max rows 1) _).length
    rw [List.length_replicate, Nat.zero_add]

/-- A view that is moved stays above the screen, and everything is marked. -/
theorem moveView_keeps (h : Shape t) {viewTop : Nat}
    (hview : viewTop ≤ t.screenTop) :
    Follows False True t { t with viewTop }.markAllDirty where
  shape := { h with view := hview }
  cols := rfl
  rows := rfl
  ordered := id
  filled _ := id
  repaints _ := Repaints.all fun _ hrow => mem_markAllDirty hrow
  alt := rfl
  main := rfl
  top _ := id

theorem Shape.follows (h : Shape t) : Follows False True t t :=
  SameGrid.follows_mode ⟨rfl, rfl, rfl, rfl, rfl, rfl, rfl, rfl⟩ h rfl rfl rfl
    rfl (fun _ hrow => hrow) rfl

theorem scrollToBottom_follows (h : Shape t) :
    Follows False True t t.scrollToBottom := by
  unfold Terminal.scrollToBottom
  split
  · exact moveView_keeps h le_rfl
  · exact h.follows

theorem scrollView_follows (h : Shape t) (deltaLines : Int) :
    Follows False True t (t.scrollView deltaLines) := by
  unfold Terminal.scrollView
  split
  · exact h.follows
  · extract_lets next clamped
    by_cases hmoved : clamped ≠ t.viewTop
    · rw [if_pos hmoved]
      exact moveView_keeps h (Nat.min_le_right _ _)
    · rw [if_neg hmoved]
      exact h.follows

theorem settle_follows (h : Shape t) (wasAtBottom : Bool) :
    Follows False True t (t.settle wasAtBottom) := by
  unfold Terminal.settle
  split
  · exact scrollToBottom_follows h
  · exact h.follows

/-- What a resize leaves: everything but the order of the margins. -/
theorem resize_shape (t : Terminal) (cols rows : Nat) :
    Shape (t.resize cols rows) ∧ Filled (t.resize cols rows)
      ∧ (t.resize cols rows).scrollTop = t.scrollTop
      ∧ (t.resize cols rows).scrollBottom = max rows 1 - 1
      ∧ ∀ row < (t.resize cols rows).rows,
        row ∈ (t.resize cols rows).dirtyRows := by
  unfold Terminal.resize
  extract_lets wasAtBottom absoluteCursor grid grown screenTop
  have hgrid : Redrawn Everywhere grid grid :=
    { same := rfl
      length := le_rfl
      flags := by
        show (List.replicate t.buffer.length false).length
          = (t.buffer.map _).length
        rw [List.length_replicate, List.length_map]
      width := by
        intro row hrow
        obtain ⟨row', -, hresized⟩ := List.mem_map.1 hrow
        rw [← hresized]
        exact length_resizeRow _ _ _
      dirty := fun _ hrow => hrow
      kept := fun _ _ => rfl }
  obtain ⟨hgrown, hlast⟩ := hgrid.ensureAbsRow (grid.screenTop + (grid.rows - 1))
  have hcols : grown.cols = max cols 1 := hgrown.cols
  have hrows : grown.rows = max rows 1 := hgrown.rows
  have hscreen : grown.screenTop = grid.screenTop := hgrown.screenTop
  have hgridRows : grid.rows = max rows 1 := rfl
  have hlength : grid.screenTop + (grid.rows - 1) < grown.buffer.length := hlast
  have htop : screenTop = min grown.screenTop (grown.buffer.length - grown.rows) :=
    rfl
  have hcursor : grown.cursorX = min t.cursorX (max cols 1 - 1) := hgrown.cursorX
  refine ⟨⟨?_, ?_, ?_, ?_, ?_, hgrown.flags, ?_, ?_⟩, ?_, ?_, ?_, ?_⟩
  · show 0 < grown.cols
    omega
  · show 0 < grown.rows
    omega
  · show grown.cursorX ≤ grown.cols
    omega
  · show min (absoluteCursor - screenTop) (grown.rows - 1) < grown.rows
    omega
  · show grown.rows - 1 < grown.rows
    omega
  · rw [show grown.cols = grid.cols from hgrown.cols]
    exact hgrown.width
  · show (if wasAtBottom then screenTop else min grown.viewTop screenTop)
      ≤ screenTop
    split
    · exact le_rfl
    · exact Nat.min_le_right _ _
  · show screenTop + grown.rows ≤ grown.buffer.length
    omega
  · exact hgrown.scrollTop
  · show grown.rows - 1 = max rows 1 - 1
    omega
  · exact fun _ hrow => mem_markAllDirty hrow

-- =================================== calls

/-- A call of a sound terminal leaves it sound, unless it moves a main screen
that is taller than the scrollback. -/
theorem Sound.run (charWidth : CharWidth) (h : Sound t) {call : Call}
    (hroom : Scrolls t call → t.rows ≤ MAX_SCROLLBACK) :
    ∃ t', t.run charWidth call = some t' ∧ Sound t' := by
  rcases run_cases charWidth h.toShape call with
    ⟨t', ht', hkeeps, -⟩ | ⟨-, hunordered⟩
  · exact ⟨t', ht', hkeeps.shape, hkeeps.ordered h.ordered,
      hkeeps.filled hroom h.filled⟩
  · exact absurd h.ordered hunordered

theorem Sound.follows {t' : Terminal} (h : Sound t)
    (hfollows : Follows False True t t') : Sound t' where
  toShape := hfollows.shape
  ordered := hfollows.ordered h.ordered
  filled := hfollows.filled False.elim h.filled

/-- A main screen that is taller than the scrollback is not moved. -/
def CallFits (t : Terminal) (call : Call) : Prop :=
  Scrolls t call → t.rows ≤ MAX_SCROLLBACK

/-- No call of a write moves a main screen that is taller than the scrollback,
and a resize leaves the upper margin on the screen. -/
def OpFits (charWidth : CharWidth) (t : Terminal) : TerminalOp → Prop
  | .write actions =>
    MeetsM (Terminal.run charWidth) CallFits t (actions.flatMap perform)
  | .resize _ rows => t.scrollTop < max rows 1
  | _ => True

theorem Sound.op {charWidth : CharWidth} (h : Sound t) {op : TerminalOp}
    (hfits : OpFits charWidth t op) :
    ∃ t', t.op charWidth op = some t' ∧ Sound t' := by
  cases op with
  | write actions =>
    obtain ⟨t', ht', hsound⟩ := MeetsM.invariant
      (fun _ _ hs hroom => Sound.run charWidth hs hroom) hfits h
    refine ⟨t'.settle t.isAtBottom, ?_,
      hsound.follows (settle_follows hsound.toShape _)⟩
    show t.write charWidth actions = _
    rw [Terminal.write, ht']
    rfl
  | resize cols rows =>
    obtain ⟨hshape, hfilled, htop, hbottom, -⟩ := resize_shape t cols rows
    refine ⟨_, rfl, hshape, ?_, hfilled⟩
    have hrows : t.scrollTop < max rows 1 := hfits
    show (t.resize cols rows).scrollTop ≤ (t.resize cols rows).scrollBottom
    omega
  | scrollView deltaLines =>
    exact ⟨_, rfl, h.follows (scrollView_follows h.toShape deltaLines)⟩
  | scrollToBottom =>
    exact ⟨_, rfl, h.follows (scrollToBottom_follows h.toShape)⟩
  | snapshot => exact ⟨t, rfl, h⟩
  | dirtySnapshot =>
    exact ⟨_, rfl, { h.toShape with }, h.ordered, h.filled⟩

-- ==================================== runs

/-- A run whose resizes leave the upper margin on the screen, and whose line
feeds move no main screen that is taller than the scrollback, does not fail
and is safe. -/
theorem safe_fitting (charWidth : CharWidth) (cols rows : Nat)
    (ops : List TerminalOp)
    (h : MeetsM (Terminal.op charWidth) (OpFits charWidth) (.new cols rows) ops) :
    ∃ t, execM (Terminal.op charWidth) (.new cols rows) ops = some t
      ∧ Safe t := by
  obtain ⟨t, ht, hsound⟩ := MeetsM.invariant
    (fun _ _ hs hfits => Sound.op hs hfits) h (new_sound cols rows)
  exact ⟨t, ht, hsound.safe⟩

/-- A character is written and the screen grows. -/
theorem safe_grown :
    ∃ t, execM (Terminal.op fun _ => some 1) (.new 2 2)
        [.write [.print 'a'], .resize 3 3] = some t ∧ Safe t := by
  apply safe_fitting
  refine ⟨⟨fun _ => by decide, fun _ _ => trivial⟩,
    fun t ht => ⟨?_, fun _ _ => trivial⟩⟩
  cases ht
  show 0 < 3
  decide

/-- Behind a resize to one row the margins of the last rows are out of order,
and a reverse index fails. -/
theorem not_safe_shrunk :
    ¬ ∀ (charWidth : CharWidth) (cols rows : Nat) (ops : List TerminalOp),
      ∃ t, execM (Terminal.op charWidth) (.new cols rows) ops = some t
        ∧ Safe t := by
  intro h
  obtain ⟨t, ht, -⟩ := h (fun _ => some 1) 1 4
    [.write [.csi [[3], [4]] [] 'r', .csi [[4], [1]] [] 'H'], .resize 1 1,
      .write [.esc [] 0x4D]]
  have hfails : execM (Terminal.op fun _ => some 1) (.new 1 4)
      [.write [.csi [[3], [4]] [] 'r', .csi [[4], [1]] [] 'H'], .resize 1 1,
        .write [.esc [] 0x4D]] = none := by
    decide +kernel
  rw [hfails] at ht
  cases ht

end RemoteDesk.TerminalCore
