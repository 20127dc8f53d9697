/-
What each call of the terminal keeps
(rustdesk_ffi/src/terminal_core/terminal.rs).

A call is one of four kinds: it moves the cursor or sets a mode, rewrites
rows of the screen and marks them, redraws the screen and marks everything,
or replaces the screen. Each call has one lemma that says that it does not
fail and what it keeps.
-/
import RemoteDesk.TerminalCore.Frames

namespace RemoteDesk.TerminalCore

open Lib

variable {t t₁ : Terminal}

/-- The rows of the view that an edit of screen rows changes are among those
rows themselves, or are marked. -/
def Aligned (t : Terminal) (rows : List Nat) : Prop :=
  ∀ row ∈ rows, row + (t.screenTop - t.viewTop) < t.rows →
    row + (t.screenTop - t.viewTop) ∈ rows
      ∨ row + (t.screenTop - t.viewTop) ∈ t.dirtyRows

/-- The rows of the buffer that an edit of screen rows touches. -/
def Touches (t : Terminal) (rows : List Nat) (absRow : Nat) : Prop :=
  ∃ row ∈ rows, absRow = t.screenTop + row

/-- Any row of the buffer. -/
def Everywhere (_ : Nat) : Prop := True

-- =============================== the kinds

/-- A call that redraws the screen and marks everything. -/
theorem Redrawn.follows_all {touched : Nat → Prop} (h : Redrawn touched t t₁)
    (hshape : Shape t) : Follows False True t t₁.markAllDirty where
  shape :=
    { h.shape hshape with }
  cols := h.cols
  rows := h.rows
  ordered hordered := by
    show t₁.scrollTop ≤ t₁.scrollBottom
    rw [h.scrollTop, h.scrollBottom]
    exact hordered
  filled _ hfilled := by
    show t₁.screenTop + t₁.rows ≤ t₁.buffer.length
    rw [h.screenTop, h.rows]
    exact Nat.le_trans hfilled h.length
  alt := (congrArg Terminal.altActive h.same :)
  main := (congrArg Terminal.main h.same :)
  top _ htop := h.screenTop.trans htop
  repaints _ := Repaints.all fun _ hrow => mem_markAllDirty hrow

/-- A call that rewrites rows of the screen and marks them. -/
theorem Redrawn.follows {rows : List Nat} (h : Redrawn (Touches t rows) t t₁)
    (hshape : Shape t) (hmarked : ∀ row ∈ rows, row ∈ t₁.dirtyRows) :
    Follows False (Aligned t rows) t t₁ where
  shape := h.shape hshape
  cols := h.cols
  rows := h.rows
  ordered hordered := by
    show t₁.scrollTop ≤ t₁.scrollBottom
    rw [h.scrollTop, h.scrollBottom]
    exact hordered
  filled _ hfilled := by
    show t₁.screenTop + t₁.rows ≤ t₁.buffer.length
    rw [h.screenTop, h.rows]
    exact Nat.le_trans hfilled h.length
  alt := (congrArg Terminal.altActive h.same :)
  main := (congrArg Terminal.main h.same :)
  top _ htop := h.screenTop.trans htop
  repaints haligned row hrow hclean := by
    refine ⟨fun hmem => hclean (h.dirty row hmem), ?_⟩
    show t₁.shownRow (t₁.viewTop + row) = _
    rw [h.viewTop]
    apply h.kept
    rintro ⟨row', hrow', hsame⟩
    have hview := hshape.view
    have hmoved : row = row' + (t.screenTop - t.viewTop) := by omega
    rw [h.rows, hmoved] at hrow
    rcases haligned row' hrow' hrow with hedited | hdirty
    · exact hclean (hmarked row (hmoved ▸ hedited))
    · exact hclean (h.dirty row (hmoved ▸ hdirty))

-- =============================== scrolling

/-- What a scroll leaves: everything is marked, and the cursor stays. -/
structure Scrolled (scrolls : Prop) (t t' : Terminal) : Prop extends
    Follows scrolls True t t' where
  all : ∀ row < t'.rows, row ∈ t'.dirtyRows
  cursorX : t'.cursorX = t.cursorX

theorem Redrawn.scrolled {touched : Nat → Prop} (h : Redrawn touched t t₁)
    (hshape : Shape t) (scrolls : Prop) : Scrolled scrolls t t₁.markAllDirty where
  toFollows := (h.follows_all hshape).mono False.elim id
  all _ hrow := mem_markAllDirty hrow
  cursorX := h.cursorX

theorem Shape.advanceScreen (h : Shape t) : Shape t.advanceScreen where
  cols := h.cols
  rows := h.rows
  cursorX := h.cursorX
  cursorY := h.cursorY
  margin := h.margin
  flags := h.flags
  width := h.width
  view := by
    show (if _ then _ else _) ≤ t.screenTop + 1
    split
    · exact le_rfl
    · exact Nat.min_le_right _ _

theorem Shape.dropRows (h : Shape t) (count : Nat) : Shape (t.dropRows count) where
  cols := h.cols
  rows := h.rows
  cursorX := h.cursorX
  cursorY := h.cursorY
  margin := h.margin
  flags := by
    show (t.wrappedRows.drop count).length = (t.buffer.drop count).length
    rw [List.length_drop, List.length_drop, h.flags]
  width row hrow := h.width row (List.mem_of_mem_drop hrow)
  view := Nat.sub_le_sub_right h.view count

/-- The rows that are too many lie above the screen, if the screen is no
taller than the scrollback may be. -/
theorem Filled.dropRows (h : Filled t) (hrows : t.rows ≤ MAX_SCROLLBACK)
    {count : Nat} (hcount : count = t.buffer.length - MAX_SCROLLBACK) :
    Filled (t.dropRows count) := by
  unfold Filled at h
  show t.screenTop - count + t.rows ≤ (t.buffer.drop count).length
  rw [List.length_drop]
  omega

theorem trimScrollback_some (h : Shape t) :
    ∃ count, t.trimScrollback = some (t.dropRows count)
      ∧ (t.rows ≤ MAX_SCROLLBACK → Filled t → Filled (t.dropRows count)) := by
  have hflags : t.excess ≤ t.wrappedRows.length := by
    rw [h.flags]
    exact Nat.sub_le _ _
  refine ⟨t.excess, ?_, fun hrows hfilled => hfilled.dropRows hrows rfl⟩
  rw [Terminal.trimScrollback, if_pos hflags]

/-- The main screen moves up, and the scrollback is trimmed. -/
theorem scrollScreen_some (h : Shape t) (halt : t.altActive = false) :
    ∃ t', t.scrollScreen = some t' ∧ Scrolled True t t' := by
  have hmoved : Shape t.advanceScreen := h.advanceScreen
  have hstart : Redrawn Everywhere t.advanceScreen t.advanceScreen :=
    hmoved.redrawn
  obtain ⟨hgrown, hbottom⟩ := hstart.ensureAbsRow
    (t.advanceScreen.screenTop + (t.advanceScreen.rows - 1))
  obtain ⟨s, hs, hblank, hlength⟩ := hgrown.blankAbsRow hbottom trivial
  have hshape : Shape s := hblank.shape hmoved
  obtain ⟨count, htrim, hfits⟩ := trimScrollback_some hshape
  have hfilled : Filled s := by
    show s.screenTop + s.rows ≤ s.buffer.length
    rw [hblank.screenTop, hblank.rows, hlength]
    have hrows := hmoved.rows
    omega
  have hscroll : t.scrollScreen = some (s.dropRows count).markAllDirty := by
    simp only [Terminal.scrollScreen, hs, htrim, Option.bind_eq_bind,
      Option.bind_some]
  refine ⟨_, hscroll, ⟨⟨⟨{ hshape.dropRows count with }, hblank.cols,
    hblank.rows, ?_, ?_, ?_⟩, ?_, ?_, ?_⟩, ?_, hblank.cursorX⟩⟩
  · intro hordered
    show s.scrollTop ≤ s.scrollBottom
    rw [hblank.scrollTop, hblank.scrollBottom]
    exact hordered
  · intro hroom _
    apply hfits
    · rw [hblank.rows]
      exact hroom trivial
    · exact hfilled
  · exact fun _ => Repaints.all fun _ hrow => mem_markAllDirty hrow
  · exact (congrArg Terminal.altActive hblank.same :)
  · exact (congrArg Terminal.main hblank.same :)
  · intro hactive
    exact Bool.noConfusion (halt.symm.trans hactive)
  · exact fun _ hrow => mem_markAllDirty hrow

/-- A region moves up by a row, whatever its top is. -/
theorem scrollRegion_some (h : Shape t) :
    ∃ t', t.scrollRegion = some t' ∧ Scrolled (t.fullScreen = true) t t' := by
  by_cases hfull : t.fullScreen = true
  · have halt : t.altActive = false := by
      simp only [Terminal.fullScreen, Bool.and_eq_true, Bool.not_eq_true'] at hfull
      exact hfull.1.1
    obtain ⟨t', ht', hscrolled⟩ := scrollScreen_some h halt
    refine ⟨t', ?_, { hscrolled with
      toFollows := hscrolled.toFollows.mono (fun _ => hfull) id }⟩
    rw [Terminal.scrollRegion, if_pos hfull, ht']
  · have hstart : Redrawn Everywhere t t := h.redrawn
    obtain ⟨hgrown, hbottom⟩ :=
      hstart.ensureAbsRow (t.screenTop + t.scrollBottom)
    obtain ⟨s, hs, hmoved, hlength⟩ := hgrown.foldlM
      (f := fun t row => t.copyRow (t.screenTop + row + 1) (t.screenTop + row))
      (l := List.range' t.scrollTop (t.scrollBottom - t.scrollTop)) (by
        intro row hrow s hs hlength
        obtain ⟨habove, hbelow⟩ := List.mem_range'_1.1 hrow
        have htop := hs.screenTop
        obtain ⟨s', hs', hcopied, hsame⟩ := hs.copyRow
          (show s.screenTop + row + 1 < s.buffer.length by omega)
          (show s.screenTop + row < s.buffer.length by omega) trivial
        exact ⟨s', hs', hcopied, hsame.ge⟩)
    obtain ⟨s', hs', hblank, -⟩ := hmoved.blankAbsRow
      (Nat.lt_of_lt_of_le hbottom hlength) trivial
    have hscroll : t.scrollRegion = some s'.markAllDirty := by
      rw [Terminal.scrollRegion, if_neg hfull]
      simp only [hs, hs', Option.bind_eq_bind, Option.bind_some]
    exact ⟨_, hscroll, hblank.scrolled h _⟩

/-- A region moves down by a row if its margins are in order. -/
theorem scrollRegionDown_some (h : Shape t) (hordered : Ordered t) :
    ∃ t', t.scrollRegionDown = some t' ∧ Scrolled False t t' := by
  unfold Ordered at hordered
  have hstart : Redrawn Everywhere t t := h.redrawn
  obtain ⟨hgrown, hbottom⟩ :=
    hstart.ensureAbsRow (t.screenTop + t.scrollBottom)
  obtain ⟨s, hs, hmoved, hlength⟩ := hgrown.foldlM
    (f := fun t row => t.copyRow (t.screenTop + row) (t.screenTop + row + 1))
    (l := (List.range' t.scrollTop (t.scrollBottom - t.scrollTop)).reverse) (by
      intro row hrow s hs hlength
      obtain ⟨-, hbelow⟩ := List.mem_range'_1.1 (List.mem_reverse.1 hrow)
      have htop := hs.screenTop
      obtain ⟨s', hs', hcopied, hsame⟩ := hs.copyRow
        (show s.screenTop + row < s.buffer.length by omega)
        (show s.screenTop + row + 1 < s.buffer.length by omega) trivial
      exact ⟨s', hs', hcopied, hsame.ge⟩)
  have htop := hmoved.screenTop
  have hmargin := hmoved.scrollTop
  obtain ⟨s', hs', hblank, -⟩ := hmoved.blankAbsRow
    (show s.screenTop + s.scrollTop < s.buffer.length by omega) trivial
  have hscroll : t.scrollRegionDown = some s'.markAllDirty := by
    rw [Terminal.scrollRegionDown]
    simp only [hs, hs', Option.bind_eq_bind, Option.bind_some]
  exact ⟨_, hscroll, hblank.scrolled h _⟩

/-- A region whose margins are out of order moves nothing, and its top row
is blanked if the buffer has it. -/
theorem scrollRegionDown_cases (h : Shape t) :
    (∃ t', t.scrollRegionDown = some t' ∧ Scrolled False t t')
      ∨ t.scrollRegionDown = none ∧ ¬ Ordered t := by
  by_cases hordered : Ordered t
  · exact .inl (scrollRegionDown_some h hordered)
  have hempty : t.scrollBottom - t.scrollTop = 0 := by
    unfold Ordered at hordered
    omega
  have hstart : Redrawn Everywhere t t := h.redrawn
  obtain ⟨hgrown, -⟩ := hstart.ensureAbsRow (t.screenTop + t.scrollBottom)
  have hscroll : t.scrollRegionDown
      = ((t.ensureAbsRow (t.screenTop + t.scrollBottom)).blankAbsRow
        (t.screenTop + t.scrollTop) >>= fun t => some t.markAllDirty) := by
    rw [Terminal.scrollRegionDown, hempty]
    rfl
  by_cases htop : t.screenTop + t.scrollTop
      < (t.ensureAbsRow (t.screenTop + t.scrollBottom)).buffer.length
  · obtain ⟨s, hs, hblank, -⟩ := hgrown.blankAbsRow htop trivial
    rw [hs] at hscroll
    exact .inl ⟨_, hscroll, hblank.scrolled h _⟩
  · refine .inr ⟨?_, hordered⟩
    rw [hscroll, Terminal.blankAbsRow, Terminal.editRow,
      List.getElem?_eq_none (Nat.le_of_not_lt htop)]
    rfl

/-- A line feed at the lower margin moves the whole main screen. -/
def Feeds (t : Terminal) : Prop :=
  t.scrollBottom ≤ t.cursorY ∧ t.fullScreen = true

/-- A line feed scrolls, or moves the cursor down. -/
theorem lineFeed_some (h : Shape t) :
    ∃ t', t.lineFeed = some t' ∧ Follows (Feeds t) True t t'
      ∧ t'.cursorX = t.cursorX
      ∧ ((∀ row < t'.rows, row ∈ t'.dirtyRows)
        ∨ t.cursorY < t.scrollBottom ∧ t'.cursorY = t.cursorY + 1
          ∧ t'.screenTop = t.screenTop ∧ t'.viewTop = t.viewTop) := by
  by_cases hbottom : t.cursorY ≥ t.scrollBottom
  · obtain ⟨t', ht', hscrolled⟩ := scrollRegion_some h
    refine ⟨t', ?_, ?_, hscrolled.cursorX, .inl hscrolled.all⟩
    · rw [Terminal.lineFeed, if_pos hbottom, ht']
    · exact hscrolled.toFollows.mono (fun hfull => ⟨hbottom, hfull⟩) id
  · have hmargin := h.margin
    have hgrid : SameGrid t
        ({ t with cursorY := t.cursorY + 1 }.markCursorMoved t.cursorY) :=
      ⟨rfl, rfl, rfl, rfl, rfl, rfl, rfl, rfl⟩
    have hfollows := hgrid.follows h h.cursorX
      (show t.cursorY + 1 < t.rows by omega) hmargin id
      fun _ hrow => mem_markCursorMoved hrow
    refine ⟨_, if_neg hbottom, hfollows.mono False.elim fun _ => .inl rfl, rfl,
      .inr ⟨by omega, rfl, rfl, rfl⟩⟩

theorem reverseIndex_cases (h : Shape t) :
    (∃ t', t.reverseIndex = some t' ∧ Follows False True t t')
      ∨ t.reverseIndex = none ∧ ¬ Ordered t := by
  rw [Terminal.reverseIndex]
  by_cases htop : t.cursorY ≤ t.scrollTop
  · rw [if_pos htop]
    rcases scrollRegionDown_cases h with ⟨t', ht', hscrolled⟩ | hfails
    · exact .inl ⟨t', ht', hscrolled.toFollows⟩
    · exact .inr hfails
  · have hcursor := h.cursorY
    have hgrid : SameGrid t
        ({ t with cursorY := t.cursorY - 1 }.markCursorMoved t.cursorY) :=
      ⟨rfl, rfl, rfl, rfl, rfl, rfl, rfl, rfl⟩
    have hfollows := hgrid.follows h h.cursorX
      (show t.cursorY - 1 < t.rows by omega) h.margin id
      fun _ hrow => mem_markCursorMoved hrow
    exact .inl ⟨_, if_neg htop, hfollows.mono id fun _ => .inl rfl⟩

-- ================================ printing

/-- The screen row that a character is put in, but for one that is scrolled
into, where everything is marked. -/
def printedRows (t : Terminal) : List Nat :=
  if t.cursorX ≥ t.cols ∧ t.autoWrap = true then
    if t.cursorY ≥ t.scrollBottom then [] else [t.cursorY + 1]
  else [t.cursorY]

/-- A character behind the last column feeds a line. -/
def Wraps (t : Terminal) : Prop :=
  t.cols ≤ t.cursorX ∧ t.autoWrap = true ∧ Feeds t

/-- Before a character is put, its cursor is in a column. -/
theorem wrapPending_some (h : Shape t) :
    ∃ t', t.wrapPending = some t' ∧ Follows (Wraps t) True t t'
      ∧ t'.cursorX < t'.cols
      ∧ ((∀ row < t'.rows, row ∈ t'.dirtyRows)
        ∨ printedRows t = [t'.cursorY] ∧ t'.screenTop = t.screenTop
          ∧ t'.viewTop = t.viewTop) := by
  have hcols := h.cols
  by_cases hpending : t.cursorX ≥ t.cols
  · by_cases hwrap : t.autoWrap = true
    · have hstart : Redrawn (Touches t []) t t := h.redrawn
      obtain ⟨hgrown, hlast⟩ := hstart.ensureAbsRow (t.screenTop + t.cursorY)
      obtain ⟨s, hs, hwrapped, -⟩ := hgrown.setWrapped hlast true
      have hfollows := hwrapped.follows h fun _ hrow => absurd hrow List.not_mem_nil
      have hgrid : SameGrid s { s with cursorX := 0 } :=
        ⟨rfl, rfl, rfl, rfl, rfl, rfl, rfl, rfl⟩
      have hzero := hgrid.follows hfollows.shape (Nat.zero_le _)
        hfollows.shape.cursorY hfollows.shape.margin id fun _ hrow => hrow
      obtain ⟨t', ht', hfed, hcursor, hmoved⟩ := lineFeed_some hzero.shape
      have hfeeds : Feeds { s with cursorX := 0 } = Feeds t :=
        (congrArg Feeds hwrapped.same :)
      rw [hfeeds] at hfed
      refine ⟨t', ?_, ?_, ?_, ?_⟩
      · rw [Terminal.wrapPending, if_pos hpending, if_pos hwrap,
          Terminal.markCurrentRowWrapped, hs]
        exact ht'
      · apply ((hfollows.trans hzero).trans hfed).mono
        · rintro ((hcontra | hcontra) | hfeed)
          · exact hcontra.elim
          · exact hcontra.elim
          · exact ⟨hpending, hwrap, hfeed⟩
        · exact fun _ => ⟨⟨fun _ hrow => absurd hrow List.not_mem_nil, .inl rfl⟩,
            trivial⟩
      · rw [hcursor, hfed.cols]
        exact hzero.shape.cols
      · rcases hmoved with hall | ⟨habove, hdown, hscreen, hview⟩
        · exact .inl hall
        · refine .inr ⟨?_, hscreen.trans hwrapped.screenTop,
            hview.trans hwrapped.viewTop⟩
          have habove' : t.cursorY < t.scrollBottom := by
            rw [← hwrapped.cursorY, ← hwrapped.scrollBottom]
            exact habove
          have hdown' : t'.cursorY = t.cursorY + 1 := by
            rw [← hwrapped.cursorY]
            exact hdown
          rw [printedRows, if_pos ⟨hpending, hwrap⟩, if_neg (by omega), hdown']
    · have hgrid : SameGrid t { t with cursorX := t.cols - 1 } :=
        ⟨rfl, rfl, rfl, rfl, rfl, rfl, rfl, rfl⟩
      have hfollows := hgrid.follows h (Nat.sub_le _ _) h.cursorY h.margin id
        fun _ hrow => hrow
      refine ⟨_, ?_, hfollows.mono False.elim fun _ => .inl rfl,
        Nat.sub_lt hcols Nat.one_pos, .inr ⟨?_, rfl, rfl⟩⟩
      · rw [Terminal.wrapPending, if_pos hpending, if_neg hwrap]
      · rw [printedRows, if_neg fun hboth => hwrap hboth.2]
  · have hgrid : SameGrid t t := ⟨rfl, rfl, rfl, rfl, rfl, rfl, rfl, rfl⟩
    have hfollows := hgrid.follows h h.cursorX h.cursorY h.margin id
      fun _ hrow => hrow
    refine ⟨t, ?_, hfollows.mono False.elim fun _ => .inl rfl,
      Nat.lt_of_not_le hpending, .inr ⟨?_, rfl, rfl⟩⟩
    · rw [Terminal.wrapPending, if_neg hpending]
    · rw [printedRows, if_neg fun hboth => hpending hboth.1]

theorem putChar_some (hcursor : t.cursorX < t.cols) (ch : Char)
    (width : Nat) (row : Row) (hrow : row.length = t.cols) :
    ∃ row', t.putChar ch width row = some row' ∧ row'.length = t.cols := by
  obtain ⟨first, hfirst, hlength⟩ := setCell_some
    { ch
      attrs := t.attrs
      wide := width > 1 }
    (show t.cursorX < row.length by omega)
  rw [Terminal.putChar, hfirst]
  by_cases hwide : (width > 1 && t.cursorX + 1 < t.cols) = true
  · obtain ⟨second, hsecond, hlength'⟩ := setCell_some
      { ch := ' '
        attrs := t.attrs
        wideContinuation := true }
      (show t.cursorX + 1 < first.length by
        simp only [Bool.and_eq_true, decide_eq_true_eq] at hwide
        omega)
    refine ⟨second, ?_, by omega⟩
    show (if _ then _ else _) = _
    rw [if_pos hwide, hsecond]
  · refine ⟨first, ?_, by omega⟩
    show (if _ then _ else _) = _
    rw [if_neg hwide]

theorem printChar_some (h : Shape t) (charWidth : CharWidth) (ch : Char) :
    ∃ t', t.printChar charWidth ch = some t'
      ∧ Follows (Wraps t) (Aligned t (printedRows t)) t t' := by
  obtain ⟨s, hs, hfollows, hcolumn, hplace⟩ := wrapPending_some h
  have hshape := hfollows.shape
  have hstart : Redrawn (Touches s [s.cursorY]) s s := hshape.redrawn
  obtain ⟨hgrown, hlast⟩ := hstart.ensureAbsRow (s.screenTop + s.cursorY)
  obtain ⟨s', hs', hput, -⟩ := hgrown.editRow
    (s.putChar ch (max ((charWidth ch).getD 1) 1)) hlast
    ⟨s.cursorY, List.mem_singleton_self _, rfl⟩
    (putChar_some hcolumn ch _)
  have hmarked := (hput.markDirty s'.cursorY).follows hshape fun row hrow => by
    rw [List.mem_singleton.1 hrow, ← hput.cursorY]
    apply markDirty_self
    rw [hput.cursorY, hput.rows]
    exact hshape.cursorY
  have hgrid : SameGrid (s'.markDirty s'.cursorY)
      { s'.markDirty s'.cursorY with
        cursorX := min (s'.cursorX + max ((charWidth ch).getD 1) 1) s'.cols } :=
    ⟨rfl, rfl, rfl, rfl, rfl, rfl, rfl, rfl⟩
  have hmoved := hgrid.follows hmarked.shape (Nat.min_le_right _ _)
    hmarked.shape.cursorY hmarked.shape.margin id fun _ hrow => hrow
  have hprint : t.printChar charWidth ch = some
      { s'.markDirty s'.cursorY with
        cursorX := min (s'.cursorX + max ((charWidth ch).getD 1) 1) s'.cols } := by
    simp only [Terminal.printChar, hs, hs', Option.bind_eq_bind,
      Option.bind_some]
    rfl
  refine ⟨_, hprint, ?_⟩
  have hedited : Follows False (Aligned s [s.cursorY]) s
      { s'.markDirty s'.cursorY with
        cursorX := min (s'.cursorX + max ((charWidth ch).getD 1) 1) s'.cols } :=
    (hmarked.trans hmoved).mono (by simp) fun haligned => ⟨haligned, .inl rfl⟩
  have hboth := hfollows.trans hedited
  have hscrolls : Wraps t ∨ False → Wraps t := fun hwraps =>
    hwraps.resolve_right id
  rcases hplace with hall | ⟨hrows, hscreen, hview⟩
  · apply (hboth.marked_all _).mono hscrolls fun _ => trivial
    intro row hrow
    apply mem_markDirty
    apply hput.dirty
    exact hall row (hedited.rows ▸ hrow)
  · apply hboth.mono hscrolls
    intro haligned
    refine ⟨trivial, fun row hrow hvisible => ?_⟩
    rw [hscreen, hview] at hvisible ⊢
    rw [← hrows] at hrow ⊢
    rcases haligned row hrow (hfollows.rows ▸ hvisible) with hedited | hdirty
    · exact .inl hedited
    · -- nothing that was marked is clean behind the wrap
      refine .inr (by_contra fun hclean => ?_)
      exact (hfollows.repaints trivial _ hvisible hclean).1 hdirty

-- ================================= erasing

section Erasing

variable {touched : Nat → Prop} {s : Terminal}

/-- A row that is erased is marked; erasing no columns touches nothing. -/
theorem eraseRow_some (h : Shape s) {row start stop : Nat}
    (habs : s.screenTop + row < s.buffer.length) (hrow : row < s.rows)
    (hstop : stop ≤ s.cols)
    (htouched : touched (s.screenTop + row) ∨ stop ≤ start) :
    ∃ s', s.eraseRow row start stop = some s' ∧ Redrawn touched s s'
      ∧ row ∈ s'.dirtyRows := by
  have hstart : Redrawn touched s s := h.redrawn
  obtain ⟨s₁, hs₁, hedited, hlength⟩ : ∃ s₁,
      s.editRow (s.screenTop + row) (fillCells (.blank s.attrs) start stop)
        = some s₁ ∧ Redrawn touched s s₁
        ∧ s₁.buffer.length = s.buffer.length := by
    rcases htouched with htouched | hempty
    · refine hstart.editRow _ habs htouched fun row' hwidth => ?_
      obtain ⟨row'', hfill, hsame⟩ := fillCells_some (.blank s.attrs) start
        (show stop ≤ row'.length by omega)
      exact ⟨row'', hfill, hsame.trans hwidth⟩
    · refine ⟨s, ?_, hstart, rfl⟩
      rw [Terminal.editRow, List.getElem?_eq_getElem habs]
      show (fillCells _ start stop s.buffer[s.screenTop + row] >>= _) = _
      rw [fillCells_empty _ hempty]
      show some { s with buffer := s.buffer.set (s.screenTop + row) _ } = some s
      rw [List.set_getElem_self]
  obtain ⟨s₂, hs₂, hwrapped, -⟩ := hedited.setWrapped (hlength ▸ habs) false
  refine ⟨s₂.markDirty row, ?_, hwrapped.markDirty row, ?_⟩
  · rw [Terminal.eraseRow]
    show (s.editRow _ _ >>= _) = _
    rw [hs₁]
    show (s₁.setWrapped (s₁.screenTop + row) false >>= _) = _
    rw [hedited.screenTop, hs₂]
    rfl
  · apply markDirty_self
    rw [hwrapped.rows]
    exact hrow

/-- A loop of steps each of which marks its row. -/
theorem Redrawn.foldlM_marks {f : Terminal → Nat → Option Terminal}
    {l : List Nat} (h : Redrawn touched t s)
    (hstep : ∀ row ∈ l, ∀ s', Redrawn touched t s' →
      s.buffer.length ≤ s'.buffer.length →
        ∃ s'', f s' row = some s'' ∧ Redrawn touched s' s''
          ∧ row ∈ s''.dirtyRows) :
    ∃ s', l.foldlM f s = some s' ∧ Redrawn touched t s'
      ∧ (∀ row ∈ s.dirtyRows, row ∈ s'.dirtyRows)
      ∧ ∀ row ∈ l, row ∈ s'.dirtyRows := by
  induction l generalizing s with
  | nil => exact ⟨s, rfl, h, fun _ hrow => hrow, fun _ hrow =>
    absurd hrow List.not_mem_nil⟩
  | cons row l ih =>
    obtain ⟨s₁, hs₁, hredrawn, hmarked⟩ :=
      hstep row List.mem_cons_self s h le_rfl
    obtain ⟨s₂, hs₂, hredrawn', hkept, hmarks⟩ := ih (h.trans hredrawn)
      fun row' hrow' s' hs' hlength => hstep row'
        (List.mem_cons_of_mem _ hrow') s' hs'
        (Nat.le_trans hredrawn.length hlength)
    refine ⟨s₂, ?_, hredrawn', fun row' hrow' =>
      hkept row' (hredrawn.dirty row' hrow'), fun row' hrow' => ?_⟩
    · rw [List.foldlM_cons, hs₁]
      exact hs₂
    · rcases List.mem_cons.1 hrow' with rfl | hrow'
      · exact hkept row' hmarked
      · exact hmarks row' hrow'

end Erasing

/-- The screen rows that are erased down from the cursor, and up to it. -/
def rowsFromCursor (t : Terminal) : List Nat :=
  List.range' t.cursorY (t.rows - t.cursorY)

def rowsToCursor (t : Terminal) : List Nat :=
  List.range (min t.cursorY (t.rows - 1) + 1)

/-- Rows of the screen are erased one by one. -/
theorem eraseRows_some (h : Shape t) {rows : List Nat}
    {start stop : Terminal → Nat → Nat}
    (hrows : ∀ row ∈ rows, row < t.rows)
    (hstop : ∀ s, s.frame = t.frame → ∀ row, stop s row ≤ s.cols) :
    ∃ t', rows.foldlM (fun t row => t.eraseRow row (start t row) (stop t row))
        (t.ensureAbsRow (t.screenTop + (t.rows - 1))) = some t'
      ∧ Follows False (Aligned t rows) t t' := by
  have hstart : Redrawn (Touches t rows) t t := h.redrawn
  obtain ⟨hgrown, hlast⟩ := hstart.ensureAbsRow (t.screenTop + (t.rows - 1))
  obtain ⟨t', ht', herased, -, hmarks⟩ := hgrown.foldlM_marks
    (f := fun t row => t.eraseRow row (start t row) (stop t row)) (l := rows) (by
      intro row hrow s hs hlength
      have hvisible := hrows row hrow
      have hscreen := hs.screenTop
      apply eraseRow_some (hs.shape h)
      · omega
      · rw [hs.rows]
        exact hvisible
      · exact hstop s hs.same row
      · exact .inl ⟨row, hrow, by rw [hscreen]⟩)
  exact ⟨t', ht', herased.follows h hmarks⟩

theorem clearScreenFromCursor_some (h : Shape t) :
    ∃ t', t.clearScreenFromCursor = some t'
      ∧ Follows False (Aligned t (rowsFromCursor t)) t t' := by
  apply eraseRows_some h
  · intro row hrow
    have hmem := List.mem_range'_1.1 hrow
    have hcursor := h.cursorY
    omega
  · exact fun _ _ _ => le_rfl

theorem clearScreenToCursor_some (h : Shape t) :
    ∃ t', t.clearScreenToCursor = some t'
      ∧ Follows False (Aligned t (rowsToCursor t)) t t' := by
  have hrows := h.rows
  apply eraseRows_some h
  · intro row hrow
    have hmem := List.mem_range.1 hrow
    omega
  · intro s hs row
    have hcols : s.cols = t.cols := (congrArg Terminal.cols hs :)
    have hpositive := h.cols
    split <;> omega

/-- The columns of a row are erased, and the row of the cursor is marked. -/
theorem eraseCursorRow_some (h : Shape t) (start : Nat) {stop : Nat}
    (hstop : stop ≤ t.cols) :
    ∃ t', (t.ensureAbsRow (t.screenTop + t.cursorY)).eraseRow t.cursorY start
        stop = some t'
      ∧ Follows False (Aligned t (if start < stop then [t.cursorY] else []))
        t t' := by
  have hstart : Redrawn (Touches t (if start < stop then [t.cursorY] else []))
      t t := h.redrawn
  obtain ⟨hgrown, hlast⟩ := hstart.ensureAbsRow (t.screenTop + t.cursorY)
  have htouched : Touches t (if start < stop then [t.cursorY] else [])
      (t.screenTop + t.cursorY) ∨ stop ≤ start := by
    by_cases hsome : start < stop
    · rw [if_pos hsome]
      exact .inl ⟨t.cursorY, List.mem_singleton_self _, rfl⟩
    · exact .inr (Nat.le_of_not_lt hsome)
  obtain ⟨t', ht', herased, hmarked⟩ := eraseRow_some (hgrown.shape h)
    hlast h.cursorY hstop htouched
  refine ⟨t', ht', (hgrown.trans herased).follows h fun row hrow => ?_⟩
  split at hrow
  · rw [List.mem_singleton.1 hrow]
    exact hmarked
  · cases hrow

theorem clearLine_some (h : Shape t) :
    ∃ t', t.clearLine = some t'
      ∧ Follows False (Aligned t [t.cursorY]) t t' := by
  have hstart : Redrawn (Touches t [t.cursorY]) t t := h.redrawn
  obtain ⟨hgrown, hlast⟩ := hstart.ensureAbsRow (t.screenTop + t.cursorY)
  obtain ⟨s, hs, hblank, -⟩ := hgrown.blankAbsRow hlast
    ⟨t.cursorY, List.mem_singleton_self _, rfl⟩
  have hclear : t.clearLine = some (s.markDirty s.cursorY) := by
    simp only [Terminal.clearLine, hs, Option.bind_eq_bind, Option.bind_some]
  refine ⟨_, hclear, (hblank.markDirty s.cursorY).follows h fun row hrow => ?_⟩
  rw [List.mem_singleton.1 hrow, ← hblank.cursorY]
  apply markDirty_self
  rw [hblank.cursorY, hblank.rows]
  exact h.cursorY

-- ================================= editing

theorem editChars_some (h : Shape t) (shift : Nat) {edit : Row → Option Row}
    (hedit : ∀ row : Row, row.length = t.cols →
      ∃ row', edit row = some row' ∧ row'.length = t.cols) :
    ∃ t', t.editChars shift edit = some t'
      ∧ Follows False (Aligned t (if 0 < shift then [t.cursorY] else [])) t t' := by
  have hstart : Redrawn (Touches t (if 0 < shift then [t.cursorY] else []))
      t t := h.redrawn
  obtain ⟨hgrown, hlast⟩ := hstart.ensureAbsRow (t.screenTop + t.cursorY)
  by_cases hshift : shift > 0
  · obtain ⟨s, hs, hedited, hlength⟩ := hgrown.editRow edit hlast
      ⟨t.cursorY, by rw [if_pos hshift]; exact List.mem_singleton_self _, rfl⟩
      hedit
    obtain ⟨s', hs', hwrapped, -⟩ := hedited.setWrapped (hlength ▸ hlast) false
    have hresult : t.editChars shift edit = some (s'.markDirty s'.cursorY) := by
      simp only [Terminal.editChars, if_pos hshift, hs, hs',
        Option.bind_eq_bind, Option.bind_some]
    refine ⟨_, hresult, (hwrapped.markDirty s'.cursorY).follows h
      fun row hrow => ?_⟩
    rw [if_pos hshift, List.mem_singleton] at hrow
    rw [hrow, ← hwrapped.cursorY]
    apply markDirty_self
    rw [hwrapped.cursorY, hwrapped.rows]
    exact h.cursorY
  · have hresult : t.editChars shift edit
        = some (t.ensureAbsRow (t.screenTop + t.cursorY)) := by
      simp only [Terminal.editChars, if_neg hshift,
        List.getElem?_eq_getElem hlast, Option.bind_eq_bind, Option.bind_some]
    refine ⟨_, hresult, hgrown.follows h fun row hrow => ?_⟩
    rw [if_neg hshift] at hrow
    cases hrow

theorem insertChars_some (h : Shape t) (n : Nat) :
    ∃ t', t.insertChars n = some t'
      ∧ Follows False (Aligned t (if t.cursorX < t.cols then [t.cursorY] else []))
        t t' := by
  have hcursor := h.cursorX
  obtain ⟨t', ht', hfollows⟩ := editChars_some h
    (min (max n 1) (t.cols - t.cursorX)) (shiftRight_some t.attrs
      (show t.cursorX + min (max n 1) (t.cols - t.cursorX) ≤ t.cols by omega))
  refine ⟨t', ht', hfollows.mono id fun haligned => ?_⟩
  by_cases hcolumn : t.cursorX < t.cols
  · rw [if_pos (by omega)]
    rw [if_pos hcolumn] at haligned
    exact haligned
  · rw [if_neg (by omega)]
    rw [if_neg hcolumn] at haligned
    exact haligned

theorem deleteChars_some (h : Shape t) (n : Nat) :
    ∃ t', t.deleteChars n = some t'
      ∧ Follows False (Aligned t (if t.cursorX < t.cols then [t.cursorY] else []))
        t t' := by
  obtain ⟨t', ht', hfollows⟩ := editChars_some h
    (min (max n 1) (t.cols - t.cursorX)) (shiftLeft_some t.attrs)
  refine ⟨t', ht', hfollows.mono id fun haligned => ?_⟩
  by_cases hcolumn : t.cursorX < t.cols
  · rw [if_pos (by omega)]
    rw [if_pos hcolumn] at haligned
    exact haligned
  · rw [if_neg (by omega)]
    rw [if_neg hcolumn] at haligned
    exact haligned

section Lines

variable {s : Terminal}

theorem insertLine_some (h : Redrawn Everywhere t s)
    (hcursor : t.cursorY ≤ t.scrollBottom)
    (hlast : t.screenTop + t.scrollBottom < s.buffer.length) :
    ∃ s', s.insertLine = some s' ∧ Redrawn Everywhere t s'
      ∧ s.buffer.length ≤ s'.buffer.length := by
  have hscreen := h.screenTop
  have hrow := h.cursorY
  have hmargin := h.scrollBottom
  obtain ⟨s₁, hs₁, hmoved, hlength⟩ := h.foldlM
    (f := fun t row => t.copyRow (t.screenTop + row) (t.screenTop + row + 1))
    (l := (List.range' s.cursorY (s.scrollBottom - s.cursorY)).reverse) (by
      intro row hrow s' hs' hlength
      obtain ⟨-, hbelow⟩ := List.mem_range'_1.1 (List.mem_reverse.1 hrow)
      have htop := hs'.screenTop
      obtain ⟨s'', hs'', hcopied, hsame⟩ := hs'.copyRow
        (show s'.screenTop + row < s'.buffer.length by omega)
        (show s'.screenTop + row + 1 < s'.buffer.length by omega) trivial
      exact ⟨s'', hs'', hcopied, hsame.ge⟩)
  have htop := hmoved.screenTop
  have hcursor' := hmoved.cursorY
  obtain ⟨s₂, hs₂, hblank, hsame⟩ := hmoved.blankAbsRow
    (show s₁.screenTop + s₁.cursorY < s₁.buffer.length by omega) trivial
  refine ⟨s₂, ?_, hblank, by omega⟩
  simp only [Terminal.insertLine, hs₁, Option.bind_eq_bind, Option.bind_some]
  exact hs₂

theorem deleteLine_some (h : Redrawn Everywhere t s)
    (hlast : t.screenTop + t.scrollBottom < s.buffer.length) :
    ∃ s', s.deleteLine = some s' ∧ Redrawn Everywhere t s'
      ∧ s.buffer.length ≤ s'.buffer.length := by
  have hscreen := h.screenTop
  have hmargin := h.scrollBottom
  obtain ⟨s₁, hs₁, hmoved, hlength⟩ := h.foldlM
    (f := fun t row => t.copyRow (t.screenTop + row + 1) (t.screenTop + row))
    (l := List.range' s.cursorY (s.scrollBottom - s.cursorY)) (by
      intro row hrow s' hs' hlength
      obtain ⟨habove, hbelow⟩ := List.mem_range'_1.1 hrow
      have htop := hs'.screenTop
      obtain ⟨s'', hs'', hcopied, hsame⟩ := hs'.copyRow
        (show s'.screenTop + row + 1 < s'.buffer.length by omega)
        (show s'.screenTop + row < s'.buffer.length by omega) trivial
      exact ⟨s'', hs'', hcopied, hsame.ge⟩)
  have htop := hmoved.screenTop
  have hbottom := hmoved.scrollBottom
  obtain ⟨s₂, hs₂, hblank, hsame⟩ := hmoved.blankAbsRow
    (show s₁.screenTop + s₁.scrollBottom < s₁.buffer.length by omega) trivial
  refine ⟨s₂, ?_, hblank, by omega⟩
  simp only [Terminal.deleteLine, hs₁, Option.bind_eq_bind, Option.bind_some]
  exact hs₂

end Lines

/-- Lines are edited within the margins, or nothing is done. -/
theorem editLines_some (h : Shape t) (n : Nat)
    {edit : Terminal → Option Terminal}
    (hedit : ∀ s, Redrawn Everywhere t s → t.cursorY ≤ t.scrollBottom →
      t.screenTop + t.scrollBottom < s.buffer.length →
        ∃ s', edit s = some s' ∧ Redrawn Everywhere t s'
          ∧ s.buffer.length ≤ s'.buffer.length) :
    ∃ t', t.editLines n edit = some t' ∧ Follows False True t t' := by
  rw [Terminal.editLines]
  by_cases hout : (t.cursorY < t.scrollTop || t.cursorY > t.scrollBottom) = true
  · have hgrid : SameGrid t t := ⟨rfl, rfl, rfl, rfl, rfl, rfl, rfl, rfl⟩
    have hfollows := hgrid.follows h h.cursorX h.cursorY h.margin id
      fun _ hrow => hrow
    exact ⟨t, if_pos hout, hfollows.mono id fun _ => .inl rfl⟩
  · rw [if_neg hout]
    simp only [Bool.or_eq_true, decide_eq_true_eq, not_or, Nat.not_lt] at hout
    have hstart : Redrawn Everywhere t t := h.redrawn
    obtain ⟨hgrown, hlast⟩ :=
      hstart.ensureAbsRow (t.screenTop + t.scrollBottom)
    obtain ⟨s, hs, hedited, -⟩ := hgrown.foldlM (f := fun t _ => edit t)
      (l := List.range (min (max n 1) (t.scrollBottom - t.cursorY + 1)))
      fun _ _ s hs hlength =>
        hedit s hs hout.2 (Nat.lt_of_lt_of_le hlast hlength)
    refine ⟨s.markAllDirty, ?_, hedited.follows_all h⟩
    rw [hs]
    rfl

theorem insertLines_some (h : Shape t) (n : Nat) :
    ∃ t', t.insertLines n = some t' ∧ Follows False True t t' :=
  editLines_some h n fun _ hs hcursor hlast => insertLine_some hs hcursor hlast

theorem deleteLines_some (h : Shape t) (n : Nat) :
    ∃ t', t.deleteLines n = some t' ∧ Follows False True t t' :=
  editLines_some h n fun _ hs _ hlast => deleteLine_some hs hlast

end RemoteDesk.TerminalCore
