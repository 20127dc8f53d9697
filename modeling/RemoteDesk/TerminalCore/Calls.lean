/-
Every call of the terminal
(rustdesk_ffi/src/terminal_core/terminal.rs).

The calls that only move the cursor or set a mode, those that replace the
screen, and over all calls: none fails but a reverse index whose margins are
out of order, and each keeps what it should.
-/
import RemoteDesk.TerminalCore.Handlers

namespace RemoteDesk.TerminalCore

open Lib

variable {t t₁ : Terminal}

-- ============================== the cursor

/-- The cursor goes to a place on the screen. -/
theorem moveTo_follows (h : Shape t) {x y : Nat} (hx : x ≤ t.cols)
    (hy : y < t.rows) :
    Follows False True t ({ t with
      cursorX := x
      cursorY := y }.markCursorMoved t.cursorY) := by
  have hgrid : SameGrid t ({ t with
      cursorX := x
      cursorY := y }.markCursorMoved t.cursorY) :=
    ⟨rfl, rfl, rfl, rfl, rfl, rfl, rfl, rfl⟩
  exact (hgrid.follows h hx hy h.margin id
    fun _ hrow => mem_markCursorMoved hrow).mono id fun _ => .inl rfl

/-- A call that sets a mode. -/
theorem SameGrid.follows_mode {scrolls seen : Prop} (hgrid : SameGrid t t₁)
    (h : Shape t)
    (hcursorX : t₁.cursorX = t.cursorX) (hcursorY : t₁.cursorY = t.cursorY)
    (htop : t₁.scrollTop = t.scrollTop)
    (hbottom : t₁.scrollBottom = t.scrollBottom)
    (hdirty : ∀ row ∈ t.dirtyRows, row ∈ t₁.dirtyRows)
    (hattrs : t₁.attrs = t.attrs) : Follows scrolls seen t t₁ := by
  refine (hgrid.follows h ?_ ?_ ?_ ?_ hdirty).mono False.elim fun _ => .inl hattrs
  · rw [hcursorX]
    exact h.cursorX
  · rw [hcursorY]
    exact h.cursorY
  · rw [hbottom]
    exact h.margin
  · unfold Ordered
    rw [htop, hbottom]
    exact id

theorem nextTabStop_le (t : Terminal) : t.nextTabStop ≤ t.cols := by
  unfold Terminal.nextTabStop
  rcases hfind : (List.range' (t.cursorX + 1) (t.cols - (t.cursorX + 1))).find?
    (fun index => t.tabStops.getD index false) with _ | stop
  · exact le_rfl
  · have hmem := List.mem_range'_1.1 (List.mem_of_find?_eq_some hfind)
    show stop ≤ t.cols
    omega

theorem tab_follows (h : Shape t) : Follows False True t t.tab :=
  moveTo_follows h (nextTabStop_le t) h.cursorY

theorem tabForward_follows (h : Shape t) (count : Nat) :
    Follows False True t (t.tabForward count) := by
  unfold Terminal.tabForward
  generalize List.range (max count 1) = steps
  induction steps generalizing t with
  | nil =>
    have hgrid : SameGrid t t := ⟨rfl, rfl, rfl, rfl, rfl, rfl, rfl, rfl⟩
    exact hgrid.follows_mode h rfl rfl rfl rfl (fun _ hrow => hrow) rfl
  | cons step steps ih =>
    have htab := tab_follows h
    exact (htab.trans (ih htab.shape)).mono (fun hs => hs.elim id id)
      fun _ => ⟨trivial, trivial⟩

theorem previousTabStop_le (tabStops : List Bool) (cursorX : Nat) :
    Terminal.previousTabStop tabStops cursorX ≤ cursorX := by
  unfold Terminal.previousTabStop
  rcases hfind : (List.range (cursorX - 1 + 1)).reverse.find?
    (fun index => tabStops.getD index false) with _ | stop
  · exact Nat.zero_le _
  · have hmem := List.mem_range.1
      (List.mem_reverse.1 (List.mem_of_find?_eq_some hfind))
    show stop ≤ cursorX
    omega

theorem tabBackward_follows (h : Shape t) (count : Nat) :
    Follows False True t (t.tabBackward count) := by
  refine moveTo_follows h ?_ h.cursorY
  have hcursor := h.cursorX
  generalize t.cursorX = cursorX at hcursor
  generalize List.range (max count 1) = steps
  induction steps generalizing cursorX with
  | nil => exact hcursor
  | cons step steps ih =>
    exact ih _ (Nat.le_trans (previousTabStop_le t.tabStops cursorX) hcursor)

/-- Steps to the left stay on the screen. -/
theorem moveLeft_places (h : Shape t) (count : Nat) :
    ∃ x y, x ≤ t.cols ∧ y < t.rows ∧ t.moveLeft count =
      { t with
        cursorX := x
        cursorY := y } := by
  induction count generalizing t with
  | zero => exact ⟨t.cursorX, t.cursorY, h.cursorX, h.cursorY, rfl⟩
  | succ count ih =>
    have hcursorX := h.cursorX
    have hcursorY := h.cursorY
    rw [Terminal.moveLeft]
    by_cases hcolumn : t.cursorX > 0
    · rw [if_pos hcolumn]
      have hmoved : Shape { t with cursorX := t.cursorX - 1 } :=
        { h with cursorX := show t.cursorX - 1 ≤ t.cols by omega }
      obtain ⟨x, y, hx, hy, hplace⟩ := ih hmoved
      exact ⟨x, y, hx, hy, hplace⟩
    · rw [if_neg hcolumn]
      by_cases hwrap : t.canReverseWrapCursor = true
      · rw [if_pos hwrap]
        have hmoved : Shape { t with
            cursorY := t.cursorY - 1
            cursorX := t.cols - 1 } :=
          { h with
            cursorX := show t.cols - 1 ≤ t.cols by omega
            cursorY := show t.cursorY - 1 < t.rows by omega }
        obtain ⟨x, y, hx, hy, hplace⟩ := ih hmoved
        exact ⟨x, y, hx, hy, hplace⟩
      · rw [if_neg hwrap]
        exact ⟨t.cursorX, t.cursorY, hcursorX, hcursorY, rfl⟩

theorem canForwardWrapCursor_lt (hwrap : t.canForwardWrapCursor = true) :
    t.cursorY + 1 < t.rows := by
  by_contra hlast
  rw [Terminal.canForwardWrapCursor, if_pos (by simp; omega)] at hwrap
  exact Bool.false_ne_true hwrap

theorem moveRight_places (h : Shape t) (count : Nat) :
    ∃ x y, x ≤ t.cols ∧ y < t.rows ∧ t.moveRight count =
      { t with
        cursorX := x
        cursorY := y } := by
  induction count generalizing t with
  | zero => exact ⟨t.cursorX, t.cursorY, h.cursorX, h.cursorY, rfl⟩
  | succ count ih =>
    have hcursorX := h.cursorX
    have hcursorY := h.cursorY
    rw [Terminal.moveRight]
    by_cases hcolumn : t.cursorX < t.cols - 1
    · rw [if_pos hcolumn]
      have hmoved : Shape { t with cursorX := t.cursorX + 1 } :=
        { h with cursorX := show t.cursorX + 1 ≤ t.cols by omega }
      obtain ⟨x, y, hx, hy, hplace⟩ := ih hmoved
      exact ⟨x, y, hx, hy, hplace⟩
    · rw [if_neg hcolumn]
      by_cases hwrap : t.canForwardWrapCursor = true
      · rw [if_pos hwrap]
        have hmoved : Shape { t with
            cursorY := t.cursorY + 1
            cursorX := 0 } :=
          { h with
            cursorX := Nat.zero_le _
            cursorY := canForwardWrapCursor_lt hwrap }
        obtain ⟨x, y, hx, hy, hplace⟩ := ih hmoved
        exact ⟨x, y, hx, hy, hplace⟩
      · rw [if_neg hwrap]
        exact ⟨t.cursorX, t.cursorY, hcursorX, hcursorY, rfl⟩

theorem signedClamp_le (base : Nat) (delta : Int) (limit : Nat) :
    signedClamp base delta limit ≤ limit :=
  Nat.min_le_right _ _

theorem moveCursor_follows (h : Shape t) (dx dy : Int) :
    Follows False True t (t.moveCursor dx dy) := by
  have hcols := h.cols
  have hrows := h.rows
  rw [Terminal.moveCursor]
  by_cases hhorizontal : dy = 0 ∧ dx ≠ 0
  · rw [if_pos hhorizontal, Terminal.moveCursorHorizontal]
    by_cases hleft : dx < 0
    · rw [if_pos hleft]
      obtain ⟨x, y, hx, hy, hplace⟩ := moveLeft_places h dx.natAbs
      rw [hplace]
      exact moveTo_follows h hx hy
    · rw [if_neg hleft]
      obtain ⟨x, y, hx, hy, hplace⟩ := moveRight_places h dx.toNat
      rw [hplace]
      exact moveTo_follows h hx hy
  · rw [if_neg hhorizontal]
    have hx := signedClamp_le t.cursorX dx (t.cols - 1)
    have hy := signedClamp_le t.cursorY dy (t.rows - 1)
    exact moveTo_follows h (by omega) (by omega)

/-- What a call leaves the attributes at. -/
def attrsBehind (t : Terminal) : Call → CellAttrs
  | .restoreCursorFull => (t.savedCursor.map (·.attrs)).getD t.attrs
  | .setSgr params => (t.setSgr params).attrs
  | _ => t.attrs

theorem restoreCursorFull_follows (h : Shape t) :
    Follows False (Unseen t (attrsBehind t .restoreCursorFull)) t
      t.restoreCursorFull := by
  have hcols := h.cols
  have hrows := h.rows
  rcases hsaved : t.savedCursor with _ | saved
  · have hrestore : t.restoreCursorFull = t := by
      rw [Terminal.restoreCursorFull, hsaved]
    have hgrid : SameGrid t t := ⟨rfl, rfl, rfl, rfl, rfl, rfl, rfl, rfl⟩
    rw [hrestore]
    exact hgrid.follows_mode h rfl rfl rfl rfl (fun _ hrow => hrow) rfl
  · have hrestore : t.restoreCursorFull = { t with
        cursorX := min saved.x (t.cols - 1)
        cursorY := min saved.y (t.rows - 1)
        attrs := saved.attrs }.markCursorMoved t.cursorY := by
      rw [Terminal.restoreCursorFull, hsaved]
    have hattrs : attrsBehind t .restoreCursorFull = saved.attrs := by
      rw [attrsBehind, hsaved]
      rfl
    have hgrid : SameGrid t ({ t with
        cursorX := min saved.x (t.cols - 1)
        cursorY := min saved.y (t.rows - 1)
        attrs := saved.attrs }.markCursorMoved t.cursorY) :=
      ⟨rfl, rfl, rfl, rfl, rfl, rfl, rfl, rfl⟩
    rw [hrestore, hattrs]
    exact hgrid.follows h (show min saved.x (t.cols - 1) ≤ t.cols by omega)
      (show min saved.y (t.rows - 1) < t.rows by omega) h.margin id
      fun _ hrow => mem_markCursorMoved hrow

theorem restoreCursorPos_follows (h : Shape t) :
    Follows False True t t.restoreCursorPos := by
  have hcols := h.cols
  have hrows := h.rows
  rcases hsaved : t.savedCursor with _ | saved
  · have hrestore : t.restoreCursorPos = t := by
      rw [Terminal.restoreCursorPos, hsaved]
    have hgrid : SameGrid t t := ⟨rfl, rfl, rfl, rfl, rfl, rfl, rfl, rfl⟩
    rw [hrestore]
    exact hgrid.follows_mode h rfl rfl rfl rfl (fun _ hrow => hrow) rfl
  · have hrestore : t.restoreCursorPos = { t with
        cursorX := min saved.x (t.cols - 1)
        cursorY := min saved.y (t.rows - 1) }.markCursorMoved t.cursorY := by
      rw [Terminal.restoreCursorPos, hsaved]
    rw [hrestore]
    exact moveTo_follows h (by omega) (by omega)

theorem setSgr_follows (h : Shape t) (params : List Nat) :
    Follows False (Unseen t (attrsBehind t (.setSgr params))) t
      (t.setSgr params) := by
  have hgrid : SameGrid t (t.setSgr params) :=
    ⟨rfl, rfl, rfl, rfl, rfl, rfl, rfl, rfl⟩
  exact hgrid.follows h h.cursorX h.cursorY h.margin id fun _ hrow => hrow

/-- The margins that a scroll region leaves. -/
theorem setScrollRegion_follows (h : Shape t) (top bottom : Option Nat) :
    Follows False True t (t.setScrollRegion top bottom) := by
  have hrows := h.rows
  have hmargin := h.margin
  obtain ⟨scrollTop, scrollBottom, hbottom, hordered, hregion⟩ :
      ∃ scrollTop scrollBottom, scrollBottom < t.rows
        ∧ (Ordered t → scrollTop ≤ scrollBottom)
        ∧ t.setScrollRegion top bottom = { t with
          scrollTop
          scrollBottom
          cursorX := 0
          cursorY := 0 }.markCursorMoved t.cursorY := by
    unfold Terminal.setScrollRegion
    rcases top with _ | top <;> rcases bottom with _ | bottom
    · exact ⟨0, t.rows - 1, by omega, fun _ => Nat.zero_le _, rfl⟩
    · exact ⟨t.scrollTop, t.scrollBottom, hmargin, id, rfl⟩
    · exact ⟨min (top - 1) (t.rows - 1), t.rows - 1, by omega,
        fun _ => Nat.min_le_right _ _, rfl⟩
    · dsimp only
      split
      · exact ⟨min (top - 1) (t.rows - 1), min (bottom - 1) (t.rows - 1),
          by omega, fun _ => by omega, rfl⟩
      · exact ⟨t.scrollTop, t.scrollBottom, hmargin, id, rfl⟩
  have hgrid : SameGrid t ({ t with
      scrollTop
      scrollBottom
      cursorX := 0
      cursorY := 0 }.markCursorMoved t.cursorY) :=
    ⟨rfl, rfl, rfl, rfl, rfl, rfl, rfl, rfl⟩
  rw [hregion]
  exact (hgrid.follows h (Nat.zero_le _) h.rows hbottom hordered
    fun _ hrow => mem_markCursorMoved hrow).mono id fun _ => .inl rfl

-- ==================== replacing the screen

theorem clearScreen_follows (h : Shape t) : Follows False True t t.clearScreen where
  shape :=
    { cols := h.cols
      rows := h.rows
      cursorX := Nat.zero_le _
      cursorY := h.rows
      margin := Nat.sub_lt h.rows Nat.one_pos
      flags := by
        show (List.replicate t.rows false).length
          = (List.replicate t.rows (blankRow t.cols t.attrs)).length
        rw [List.length_replicate, List.length_replicate]
      width row hrow := by
        rw [List.eq_of_mem_replicate hrow]
        exact length_blankRow _ _
      view := le_rfl }
  cols := rfl
  rows := rfl
  ordered _ := Nat.zero_le _
  filled _ _ := by
    show 0 + t.rows ≤ (List.replicate t.rows (blankRow t.cols t.attrs)).length
    rw [List.length_replicate, Nat.zero_add]
  repaints _ := Repaints.all fun _ hrow => mem_markAllDirty hrow
  alt := rfl
  main := rfl
  top _ _ := rfl

/-- The blank screen that is entered. -/
theorem enterAltScreen_keeps (h : Shape t) (clear : Bool) :
    Keeps False True t (t.enterAltScreen clear) := by
  have hgrid : SameGrid t t := ⟨rfl, rfl, rfl, rfl, rfl, rfl, rfl, rfl⟩
  rw [Terminal.enterAltScreen]
  by_cases halt : t.altActive = true
  · rw [if_pos halt]
    exact @Follows.toKeeps _ _ _ _ <|
      hgrid.follows_mode h rfl rfl rfl rfl (fun _ hrow => hrow) rfl
  · rw [if_neg halt]
    extract_lets entered
    have hentered : Keeps False True t entered :=
      { shape := { (clearScreen_follows h).shape with }
        cols := rfl
        rows := rfl
        ordered := fun _ => Nat.zero_le _
        filled := (clearScreen_follows h).filled
        repaints := fun _ => Repaints.all fun _ hrow => List.mem_range.2 hrow }
    split
    · exact (hentered.trans (clearScreen_follows hentered.shape).toKeeps).mono
        (fun hs => hs.elim id id) fun _ => ⟨trivial, trivial⟩
    · exact hentered

theorem length_resizeFlags (flags : List Bool) (length : Nat) :
    (Terminal.resizeFlags flags length).length = length := by
  rw [Terminal.resizeFlags, List.length_append, List.length_take,
    List.length_replicate]
  omega

/-- Whatever is fitted into the screen has a shape and fills it. -/
theorem fitScreen_shape (hcols : 0 < t.cols) (hrows : 0 < t.rows)
    (hmargin : t.scrollBottom < t.rows) :
    Shape t.fitScreen ∧ Filled t.fitScreen := by
  have hlength : t.screenTop + t.rows
      ≤ (t.ensureAbsRow (t.screenTop + (t.rows - 1))).buffer.length := by
    show _ ≤ (t.buffer ++ _).length
    rw [List.length_append, List.length_replicate]
    omega
  unfold Terminal.fitScreen
  generalize hgrown : t.ensureAbsRow (t.screenTop + (t.rows - 1)) = grown
    at hlength
  have hsame : grown.cols = t.cols ∧ grown.rows = t.rows
      ∧ grown.scrollBottom = t.scrollBottom := by
    rw [← hgrown]
    exact ⟨rfl, rfl, rfl⟩
  obtain ⟨hcols', hrows', hmargin'⟩ := hsame
  refine ⟨⟨?_, ?_, ?_, ?_, ?_, ?_, ?_, ?_⟩, ?_⟩
  · show 0 < grown.cols
    omega
  · show 0 < grown.rows
    omega
  · show min grown.cursorX (grown.cols - 1) ≤ grown.cols
    omega
  · show min grown.cursorY (grown.rows - 1) < grown.rows
    omega
  · show grown.scrollBottom < grown.rows
    omega
  · show (Terminal.resizeFlags grown.wrappedRows grown.buffer.length).length
      = (grown.buffer.map _).length
    rw [length_resizeFlags, List.length_map]
  · intro row hrow
    obtain ⟨row', -, hresized⟩ := List.mem_map.1 hrow
    rw [← hresized]
    exact length_resizeRow _ _ _
  · exact Nat.min_le_right _ _
  · show min grown.screenTop (grown.buffer.length - grown.rows) + grown.rows
      ≤ (grown.buffer.map _).length
    rw [List.length_map]
    omega

theorem leaveAltScreen_keeps (h : Shape t) : Keeps False True t t.leaveAltScreen := by
  have hgrid : SameGrid t t := ⟨rfl, rfl, rfl, rfl, rfl, rfl, rfl, rfl⟩
  rw [Terminal.leaveAltScreen]
  by_cases halt : (!t.altActive) = true
  · rw [if_pos halt]
    exact @Follows.toKeeps _ _ _ _ <|
      hgrid.follows_mode h rfl rfl rfl rfl (fun _ hrow => hrow) rfl
  · have hmargin : t.restoreMain.scrollBottom < t.restoreMain.rows :=
      Nat.sub_lt h.rows Nat.one_pos
    obtain ⟨hshape, hfilled⟩ := @fitScreen_shape t.restoreMain h.cols
      h.rows hmargin
    rw [if_neg halt]
    exact
      { shape := hshape
        cols := rfl
        rows := rfl
        ordered := fun _ => Nat.zero_le _
        filled := fun _ _ => hfilled
        repaints := fun _ => Repaints.all fun _ hrow => mem_markAllDirty hrow }

theorem resetTerminal_keeps (h : Shape t) : Keeps False True t t.resetTerminal := by
  have hleft := leaveAltScreen_keeps h
  unfold Terminal.resetTerminal
  extract_lets left
  have hshape : Shape { left with
      attrs := {}
      cursorVisible := true
      autoWrap := true
      bracketedPaste := false
      mouseTracking := 0
      sgrMouse := false
      applicationCursorKeys := false
      applicationKeypad := false
      tabStops := defaultTabStops left.cols
      savedCursor := none } := { hleft.shape with }
  have hcleared := clearScreen_follows hshape
  exact
    { shape := hcleared.shape
      cols := hleft.cols
      rows := hleft.rows
      ordered := fun _ => Nat.zero_le _
      filled := fun _ _ => by
        show 0 + left.rows ≤ (List.replicate left.rows _).length
        rw [List.length_replicate, Nat.zero_add]
      repaints := fun _ => Repaints.all fun _ hrow => mem_markAllDirty hrow }

-- =============================== all calls

/-- A call that moves the whole main screen into the scrollback. -/
def Scrolls (t : Terminal) : Call → Prop
  | .printChar _ => Wraps t
  | .executeByte byte => byte = 0x0A ∧ Feeds t
  | _ => False

/-- The screen rows whose cells a call rewrites, where it marks those alone. -/
def editedRows (t : Terminal) : Call → List Nat
  | .printChar _ => printedRows t
  | .clearScreenFromCursor => rowsFromCursor t
  | .clearScreenToCursor => rowsToCursor t
  | .clearLineToCursor | .clearLine => [t.cursorY]
  | .clearLineFromCursor | .insertChars _ | .deleteChars _ | .eraseChars _ =>
    if t.cursorX < t.cols then [t.cursorY] else []
  | _ => []

/-- The rows of the view that a call changes are marked. -/
def Seen (t : Terminal) (call : Call) : Prop :=
  Aligned t (editedRows t call) ∧ Unseen t (attrsBehind t call)

/-- A call that may go to another screen. -/
def Switches (t : Terminal) : Call → Prop
  | .enterAltScreen _ => t.altActive = false
  | .leaveAltScreen | .resetTerminal => True
  | _ => False

theorem executeByte_some (h : Shape t) (byte : UInt8) :
    ∃ t', t.executeByte byte = some t'
      ∧ Follows (Scrolls t (.executeByte byte)) True t t' := by
  unfold Terminal.executeByte
  by_cases hfeed : byte = 0x0A
  · obtain ⟨t', ht', hfollows, -⟩ := lineFeed_some h
    exact ⟨t', by rw [if_pos hfeed, ht'], hfollows.mono (fun hf => ⟨hfeed, hf⟩) id⟩
  rw [if_neg hfeed]
  by_cases hreturn : byte = 0x0D
  · exact ⟨_, if_pos hreturn, (moveTo_follows h (Nat.zero_le _) h.cursorY).mono
      False.elim id⟩
  rw [if_neg hreturn]
  by_cases hback : byte = 0x08
  · exact ⟨_, if_pos hback, (moveTo_follows h
      (Nat.le_trans (Nat.sub_le _ 1) h.cursorX) h.cursorY).mono False.elim id⟩
  rw [if_neg hback]
  by_cases htab : byte = 0x09
  · exact ⟨_, if_pos htab, (tab_follows h).mono False.elim id⟩
  rw [if_neg htab]
  have hgrid : SameGrid t t := ⟨rfl, rfl, rfl, rfl, rfl, rfl, rfl, rfl⟩
  exact ⟨t, rfl, hgrid.follows_mode h rfl rfl rfl rfl (fun _ hrow => hrow) rfl⟩

/-- No call fails but a reverse index whose margins are out of order. -/
theorem run_cases (charWidth : CharWidth) (h : Shape t) (call : Call) :
    (∃ t', t.run charWidth call = some t'
        ∧ Keeps (Scrolls t call) (Seen t call) t t'
        ∧ (¬ Switches t call → Follows (Scrolls t call) (Seen t call) t t'))
      ∨ t.run charWidth call = none ∧ ¬ Ordered t := by
  -- what stays on its screen is enough
  have hstays : (∃ t', t.run charWidth call = some t'
      ∧ Follows (Scrolls t call) (Seen t call) t t') →
        (∃ t', t.run charWidth call = some t'
          ∧ Keeps (Scrolls t call) (Seen t call) t t'
          ∧ (¬ Switches t call → Follows (Scrolls t call) (Seen t call) t t'))
        ∨ t.run charWidth call = none ∧ ¬ Ordered t :=
    fun ⟨t', ht', hfollows⟩ =>
      .inl ⟨t', ht', hfollows.toKeeps, fun _ => hfollows⟩
  have hgrid : SameGrid t t := ⟨rfl, rfl, rfl, rfl, rfl, rfl, rfl, rfl⟩
  have hcols := h.cols
  have hrows := h.rows
  have hcursorX := h.cursorX
  have hcursorY := h.cursorY
  cases call with
  | printChar ch =>
    apply hstays
    obtain ⟨t', ht', hfollows⟩ := printChar_some h charWidth ch
    exact ⟨t', ht', hfollows.mono id And.left⟩
  | executeByte byte =>
    apply hstays
    obtain ⟨t', ht', hfollows⟩ := executeByte_some h byte
    exact ⟨t', ht', hfollows.mono id fun _ => trivial⟩
  | reverseIndex =>
    rcases reverseIndex_cases h with ⟨t', ht', hfollows⟩ | hfails
    · exact hstays ⟨t', ht', hfollows.mono id fun _ => trivial⟩
    · exact .inr hfails
  | tabForward count =>
    exact hstays ⟨_, rfl, (tabForward_follows h count).mono id fun _ => trivial⟩
  | tabBackward count =>
    exact hstays ⟨_, rfl, (tabBackward_follows h count).mono id fun _ => trivial⟩
  | moveCursor dx dy =>
    exact hstays ⟨_, rfl, (moveCursor_follows h dx dy).mono id fun _ => trivial⟩
  | setCursor x y =>
    exact hstays ⟨_, rfl, (moveTo_follows h
      (show min x (t.cols - 1) ≤ t.cols by omega)
      (show min y (t.rows - 1) < t.rows by omega)).mono id fun _ => trivial⟩
  | cursorAbsoluteCol col =>
    exact hstays ⟨_, rfl, (moveTo_follows h
      (show min (col - 1) (t.cols - 1) ≤ t.cols by omega) hcursorY).mono id
        fun _ => trivial⟩
  | cursorAbsoluteRow row =>
    exact hstays ⟨_, rfl, (moveTo_follows h hcursorX
      (show min (row - 1) (t.rows - 1) < t.rows by omega)).mono id
        fun _ => trivial⟩
  | cursorNextLine n =>
    exact hstays ⟨_, rfl, (moveTo_follows h (Nat.zero_le _)
      (show min (t.cursorY + n) (t.rows - 1) < t.rows by omega)).mono id
        fun _ => trivial⟩
  | cursorPrevLine n =>
    exact hstays ⟨_, rfl, (moveTo_follows h (Nat.zero_le _)
      (show t.cursorY - n < t.rows by omega)).mono id fun _ => trivial⟩
  | saveCursorFull | saveCursorPos | setTabStop =>
    exact hstays ⟨_, rfl, SameGrid.follows_mode
      ⟨rfl, rfl, rfl, rfl, rfl, rfl, rfl, rfl⟩ h rfl rfl rfl rfl
        (fun _ hrow => hrow) rfl⟩
  | restoreCursorFull =>
    exact hstays ⟨_, rfl, (restoreCursorFull_follows h).mono id And.right⟩
  | restoreCursorPos =>
    exact hstays ⟨_, rfl, (restoreCursorPos_follows h).mono id fun _ => trivial⟩
  | setScrollRegion top bottom =>
    exact hstays ⟨_, rfl, (setScrollRegion_follows h top bottom).mono id
      fun _ => trivial⟩
  | clearScreen =>
    exact hstays ⟨_, rfl, (clearScreen_follows h).mono id fun _ => trivial⟩
  | clearScreenFromCursor =>
    apply hstays
    obtain ⟨t', ht', hfollows⟩ := clearScreenFromCursor_some h
    exact ⟨t', ht', hfollows.mono id And.left⟩
  | clearScreenToCursor =>
    apply hstays
    obtain ⟨t', ht', hfollows⟩ := clearScreenToCursor_some h
    exact ⟨t', ht', hfollows.mono id And.left⟩
  | clearLineFromCursor =>
    apply hstays
    obtain ⟨t', ht', hfollows⟩ := eraseCursorRow_some h
      t.cursorX (le_refl t.cols)
    exact ⟨t', ht', hfollows.mono id And.left⟩
  | clearLineToCursor =>
    apply hstays
    obtain ⟨t', ht', hfollows⟩ := eraseCursorRow_some h 0
      (show min t.cursorX (t.cols - 1) + 1 ≤ t.cols by omega)
    rw [if_pos (by omega)] at hfollows
    exact ⟨t', ht', hfollows.mono id And.left⟩
  | clearLine =>
    apply hstays
    obtain ⟨t', ht', hfollows⟩ := clearLine_some h
    exact ⟨t', ht', hfollows.mono id And.left⟩
  | insertChars n =>
    apply hstays
    obtain ⟨t', ht', hfollows⟩ := insertChars_some h n
    exact ⟨t', ht', hfollows.mono id And.left⟩
  | deleteChars n =>
    apply hstays
    obtain ⟨t', ht', hfollows⟩ := deleteChars_some h n
    exact ⟨t', ht', hfollows.mono id And.left⟩
  | eraseChars n =>
    apply hstays
    obtain ⟨t', ht', hfollows⟩ := eraseCursorRow_some h t.cursorX
      (show min (t.cursorX + max n 1) t.cols ≤ t.cols from Nat.min_le_right _ _)
    refine ⟨t', ht', hfollows.mono id fun hseen => ?_⟩
    have haligned : Aligned t
        (if t.cursorX < t.cols then [t.cursorY] else []) := hseen.1
    by_cases hcolumn : t.cursorX < t.cols
    · rw [if_pos (by omega)]
      rw [if_pos hcolumn] at haligned
      exact haligned
    · rw [if_neg (by omega)]
      rw [if_neg hcolumn] at haligned
      exact haligned
  | insertLines n =>
    apply hstays
    obtain ⟨t', ht', hfollows⟩ := insertLines_some h n
    exact ⟨t', ht', hfollows.mono id fun _ => trivial⟩
  | deleteLines n =>
    apply hstays
    obtain ⟨t', ht', hfollows⟩ := deleteLines_some h n
    exact ⟨t', ht', hfollows.mono id fun _ => trivial⟩
  | enterAltScreen clear =>
    refine .inl ⟨_, rfl, (enterAltScreen_keeps h clear).mono id
      fun _ => trivial, fun hswitches => ?_⟩
    have halt : t.altActive = true := by
      cases hactive : t.altActive with
      | true => rfl
      | false => exact absurd hactive hswitches
    have hsame : t.enterAltScreen clear = t := if_pos halt
    rw [hsame]
    exact hgrid.follows_mode h rfl rfl rfl rfl (fun _ hrow => hrow) rfl
  | leaveAltScreen =>
    exact .inl ⟨_, rfl, (leaveAltScreen_keeps h).mono id fun _ => trivial,
      fun hswitches => absurd trivial hswitches⟩
  | resetTerminal =>
    exact .inl ⟨_, rfl, (resetTerminal_keeps h).mono id fun _ => trivial,
      fun hswitches => absurd trivial hswitches⟩
  | setCursorVisible visible =>
    apply hstays
    refine ⟨_, rfl, ?_⟩
    unfold Terminal.setCursorVisible
    split
    · exact SameGrid.follows_mode ⟨rfl, rfl, rfl, rfl, rfl, rfl, rfl, rfl⟩ h
        rfl rfl rfl rfl (fun _ hrow => mem_markDirty hrow) rfl
    · exact hgrid.follows_mode h rfl rfl rfl rfl (fun _ hrow => hrow) rfl
  | setAutoWrap _ | setBracketedPaste _ | setMouseTracking _ | setSgrMouse _
  | setApplicationCursorKeys _ | setApplicationKeypad _ =>
    exact hstays ⟨_, rfl, SameGrid.follows_mode
      ⟨rfl, rfl, rfl, rfl, rfl, rfl, rfl, rfl⟩ h rfl rfl rfl rfl
        (fun _ hrow => hrow) rfl⟩
  | clearTabStop mode =>
    apply hstays
    refine ⟨_, rfl, ?_⟩
    unfold Terminal.clearTabStop
    split <;>
      exact SameGrid.follows_mode ⟨rfl, rfl, rfl, rfl, rfl, rfl, rfl, rfl⟩ h
        rfl rfl rfl rfl (fun _ hrow => hrow) rfl
  | setSgr params =>
    exact hstays ⟨_, rfl, (setSgr_follows h params).mono id And.right⟩

end RemoteDesk.TerminalCore
