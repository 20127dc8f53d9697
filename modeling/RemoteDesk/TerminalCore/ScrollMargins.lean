/-
What scrolling within the margins leaves alone
(rustdesk_ffi/src/terminal_core/terminal.rs).

# Confinement

A line feed, a reverse index and the lines that are inserted or deleted move rows
between the margins. The others keep their cells (`Confined`), and below the lower
margin a line feed only moves the cursor.

# What goes wrong

`line_feed` scrolls wherever the cursor is not above the lower margin, so below it
the margins move and the cursor does not. And where a resize left the margins out of
order, the row that it blanks is not between them.
-/
import RemoteDesk.TerminalCore.AltScreen

namespace RemoteDesk.TerminalCore

open Lib

variable {t t₁ t₂ : Terminal}

-- ============================ the property

/-- What scrolls the rows between the margins; `wrap` is the line feed of a
character that has no column left. -/
inductive ScrollCommand where
  | lineFeed
  | wrap
  | reverseIndex
  | insertLines (n : Nat)
  | deleteLines (n : Nat)
deriving DecidableEq, Repr

namespace Terminal

def scrollBy (t : Terminal) : ScrollCommand → Option Terminal
  | .lineFeed => t.lineFeed
  | .wrap => t.wrapPending
  | .reverseIndex => t.reverseIndex
  | .insertLines n => t.insertLines n
  | .deleteLines n => t.deleteLines n

/-- Whether the command feeds a line. -/
def feedsLine (t : Terminal) : ScrollCommand → Prop
  | .lineFeed => True
  | .wrap => t.cursorX ≥ t.cols ∧ t.autoWrap = true
  | .reverseIndex | .insertLines _ | .deleteLines _ => False

/-- The cells of a row of the screen. -/
def screenRow (t : Terminal) (row : Nat) : List SnapshotCell :=
  t.shownRow (t.screenTop + row)

/-- The cells of a blank row. -/
def blankShown (t : Terminal) : List SnapshotCell :=
  List.replicate t.cols (.blank t.attrs)

end Terminal

/-- Rows outside the margins keep their cells; and a line feed below them moves the
cursor down, if there is a row, and no cells. -/
structure Confined (feeds : Prop) (t t' : Terminal) : Prop where
  outside : ∀ row < t.rows, row < t.scrollTop ∨ t.scrollBottom < row →
    t'.screenRow row = t.screenRow row
  below : feeds → t.scrollBottom < t.cursorY →
    t'.cursorY = min (t.cursorY + 1) (t.rows - 1)
      ∧ ∀ row < t.rows, t'.screenRow row = t.screenRow row

/-- A line feed shows nothing: what it scrolls is blank, and the cursor is on the
lower margin or on the last row. -/
def Unseeing (t : Terminal) : Prop :=
  (t.cursorY = t.scrollBottom ∨ t.cursorY = t.rows - 1)
    ∧ ∀ row ≤ t.scrollBottom, t.scrollTop ≤ row ∨ row = t.scrollBottom →
      t.screenRow row = t.blankShown

/-- A line feed is within the margins: the cursor is above the lower one, or on it
with the margins in order. -/
def FeedsWithin (t : Terminal) : Prop :=
  t.cursorY < t.scrollBottom ∨ t.cursorY = t.scrollBottom ∧ Ordered t

-- ============================ what changes

/-- Only the rows of the screen that are touched change. -/
structure ChangesOnly (touched : Nat → Prop) (t t' : Terminal) : Prop where
  same : t'.frame = t.frame
  kept : ∀ row, ¬ touched row → t'.screenRow row = t.screenRow row

variable {edit : Row → Option Row} {charWidth : CharWidth}

section ChangesOnly

variable {touched : Nat → Prop}

theorem ChangesOnly.refl (t : Terminal) : ChangesOnly touched t t := ⟨rfl, fun _ _ => rfl⟩

theorem ChangesOnly.trans (h : ChangesOnly touched t t₁) (h' : ChangesOnly touched t₁ t₂) :
    ChangesOnly touched t t₂ :=
  ⟨h'.same.trans h.same, fun row hrow => (h'.kept row hrow).trans (h.kept row hrow)⟩

theorem ChangesOnly.screenTop (h : ChangesOnly touched t t₁) : t₁.screenTop = t.screenTop :=
  (congrArg Terminal.screenTop h.same :)

theorem ChangesOnly.ensureAbsRow (t : Terminal) (absRow : Nat) :
    ChangesOnly touched t (t.ensureAbsRow absRow) :=
  ⟨rfl, fun row _ => shownRow_ensureAbsRow t absRow (t.screenTop + row)⟩

theorem ChangesOnly.setWrapped {absRow : Nat} {wrapped : Bool}
    (h : t.setWrapped absRow wrapped = some t₁) : ChangesOnly touched t t₁ := by
  rw [Terminal.setWrapped] at h
  split at h
  · cases h
    exact ⟨rfl, fun _ _ => rfl⟩
  · cases h

/-- A row that is rewritten, as it is shown. -/
theorem shownRow_editRow {absRow : Nat} (h : t.editRow absRow edit = some t₁) :
    t₁.frame = t.frame ∧ ∃ row row', t.buffer[absRow]? = some row ∧ edit row = some row'
      ∧ ∀ other, t₁.shownRow other
        = if other = absRow then (row'.take t.cols).map Cell.shown
          else t.shownRow other := by
  obtain ⟨row, hrow, hedit⟩ := Option.bind_eq_some_iff.1 h
  obtain ⟨row', hrow', hset⟩ := Option.bind_eq_some_iff.1 hedit
  cases hset
  refine ⟨rfl, row, row', hrow, hrow', fun other => ?_⟩
  have hwithin : absRow < t.buffer.length := (List.getElem?_eq_some_iff.1 hrow).1
  unfold Terminal.shownRow
  dsimp only
  by_cases hother : other = absRow
  · rw [if_pos hother, hother, List.getElem?_set_self hwithin]
  · rw [if_neg hother, List.getElem?_set_ne (Ne.symm hother)]

theorem ChangesOnly.editRow {row : Nat}
    (h : t.editRow (t.screenTop + row) edit = some t₁)
    (htouched : touched row) : ChangesOnly touched t t₁ := by
  obtain ⟨hsame, _, _, _, _, hshown⟩ := shownRow_editRow h
  refine ⟨hsame, fun other hother => ?_⟩
  have htop : t₁.screenTop = t.screenTop := (congrArg Terminal.screenTop hsame :)
  have hne : other ≠ row := fun heq => hother (heq ▸ htouched)
  rw [Terminal.screenRow, htop, hshown, if_neg (by omega)]
  rfl

/-- A row of the screen that is copied to another. -/
theorem screenRow_copyRow (source target : Nat)
    (h : t.copyRow (t.screenTop + source) (t.screenTop + target) = some t₁) :
    t₁.frame = t.frame ∧ ∀ row, t₁.screenRow row
      = if row = target then t.screenRow source else t.screenRow row := by
  obtain ⟨row, hrow, h⟩ := Option.bind_eq_some_iff.1 h
  obtain ⟨s, hs, h⟩ := Option.bind_eq_some_iff.1 h
  obtain ⟨flag, _, h⟩ := Option.bind_eq_some_iff.1 h
  obtain ⟨hsame, _, _, _, hedit, hshown⟩ := shownRow_editRow hs
  cases hedit
  have hflag : ChangesOnly (fun _ => False) s t₁ := ChangesOnly.setWrapped h
  refine ⟨hflag.same.trans hsame, fun other => ?_⟩
  have htop : s.screenTop = t.screenTop := (congrArg Terminal.screenTop hsame :)
  rw [hflag.kept other not_false, Terminal.screenRow, htop, hshown]
  by_cases hother : other = target
  · rw [if_pos (by omega), if_pos hother, Terminal.screenRow, Terminal.shownRow, hrow]
  · rw [if_neg (by omega), if_neg hother, Terminal.screenRow]

theorem ChangesOnly.copyRow (source target : Nat)
    (h : t.copyRow (t.screenTop + source) (t.screenTop + target) = some t₁)
    (htouched : touched target) : ChangesOnly touched t t₁ := by
  obtain ⟨hsame, hshown⟩ := screenRow_copyRow source target h
  refine ⟨hsame, fun row hrow => ?_⟩
  have hne : row ≠ target := fun heq => hrow (heq ▸ htouched)
  rw [hshown, if_neg hne]

/-- A row of the screen that is blanked. -/
theorem screenRow_blankAbsRow {target : Nat}
    (h : t.blankAbsRow (t.screenTop + target) = some t₁) :
    t₁.frame = t.frame ∧ ∀ row, t₁.screenRow row
      = if row = target then t.blankShown else t.screenRow row := by
  obtain ⟨s, hs, h⟩ := Option.bind_eq_some_iff.1 h
  obtain ⟨hsame, _, _, _, hedit, hshown⟩ := shownRow_editRow hs
  cases hedit
  have hflag : ChangesOnly (fun _ => False) s t₁ := ChangesOnly.setWrapped h
  refine ⟨hflag.same.trans hsame, fun other => ?_⟩
  have htop : s.screenTop = t.screenTop := (congrArg Terminal.screenTop hsame :)
  rw [hflag.kept other not_false, Terminal.screenRow, htop, hshown]
  by_cases hother : other = target
  · rw [if_pos (by omega), if_pos hother, Terminal.blankShown, blankRow,
      List.take_of_length_le (by simp), List.map_replicate, shown_blank]
  · rw [if_neg (by omega), if_neg hother, Terminal.screenRow]

theorem ChangesOnly.blankAbsRow {target : Nat}
    (h : t.blankAbsRow (t.screenTop + target) = some t₁) (htouched : touched target) :
    ChangesOnly touched t t₁ := by
  obtain ⟨hsame, hshown⟩ := screenRow_blankAbsRow h
  refine ⟨hsame, fun row hrow => ?_⟩
  have hne : row ≠ target := fun heq => hrow (heq ▸ htouched)
  rw [hshown, if_neg hne]

/-- A loop of steps that leave the same rows alone. -/
theorem ChangesOnly.foldlM {α : Type*} {f : Terminal → α → Option Terminal} {l : List α}
    (hstep : ∀ a ∈ l, ∀ s s', ChangesOnly touched t s → f s a = some s' →
      ChangesOnly touched s s') (h : ChangesOnly touched t t₁)
    (hloop : l.foldlM f t₁ = some t₂) : ChangesOnly touched t t₂ := by
  induction l generalizing t₁ with
  | nil =>
    cases hloop
    exact h
  | cons a l ih =>
    rw [List.foldlM_cons] at hloop
    obtain ⟨s, hs, hloop⟩ := Option.bind_eq_some_iff.1 hloop
    exact ih (fun a' ha' => hstep a' (List.mem_cons_of_mem _ ha'))
      (h.trans (hstep a List.mem_cons_self _ _ h hs)) hloop

end ChangesOnly

-- =============================== scrolling

/-- The rows from `top` on move up by one, `count` of them. -/
theorem screenRow_scrolledUp {top count : Nat}
    (h : (List.range' top count).foldlM
      (fun t row => t.copyRow (t.screenTop + row + 1) (t.screenTop + row)) t
        = some t₁) :
    t₁.frame = t.frame ∧ ∀ row, t₁.screenRow row
      = if top ≤ row ∧ row < top + count then t.screenRow (row + 1)
        else t.screenRow row := by
  induction count generalizing t₁ with
  | zero =>
    cases h
    exact ⟨rfl, fun row => (if_neg (by omega)).symm⟩
  | succ count ih =>
    rw [List.range'_concat, List.foldlM_append] at h
    obtain ⟨s, hs, h⟩ := Option.bind_eq_some_iff.1 h
    obtain ⟨hsame, hshown⟩ := ih hs
    rw [List.foldlM_cons, Nat.one_mul] at h
    obtain ⟨s', hs', h⟩ := Option.bind_eq_some_iff.1 h
    cases h
    obtain ⟨hsame', hshown'⟩ := screenRow_copyRow (top + count + 1) (top + count) hs'
    refine ⟨hsame'.trans hsame, fun row => ?_⟩
    rw [hshown', hshown, hshown]
    by_cases hlast : row = top + count
    · rw [if_pos hlast, if_neg (by omega), if_pos (by omega), hlast]
    · rw [if_neg hlast]
      by_cases hmoved : top ≤ row ∧ row < top + count
      · rw [if_pos hmoved, if_pos (by omega)]
      · rw [if_neg hmoved, if_neg (by omega)]

/-- What a scroll makes of the rows between the margins. -/
def scrolledRow (t : Terminal) (row : Nat) : List SnapshotCell :=
  if row = t.scrollBottom then t.blankShown
  else if t.scrollTop ≤ row ∧ row < t.scrollBottom then t.screenRow (row + 1)
  else t.screenRow row

theorem screenRow_scrollRegion (hfull : t.fullScreen ≠ true)
    (h : t.scrollRegion = some t₁) :
    t₁.frame = t.frame ∧ ∀ row, t₁.screenRow row = scrolledRow t row := by
  rw [Terminal.scrollRegion, if_neg hfull] at h
  obtain ⟨s, hs, h⟩ := Option.bind_eq_some_iff.1 h
  obtain ⟨s', hs', h⟩ := Option.bind_eq_some_iff.1 h
  cases h
  have hgrown : ChangesOnly (fun _ => False) t
      (t.ensureAbsRow (t.screenTop + t.scrollBottom)) := .ensureAbsRow t _
  obtain ⟨hsame, hshown⟩ := screenRow_scrolledUp hs
  have hframe := hsame.trans hgrown.same
  have htop : s.screenTop = t.screenTop := (congrArg Terminal.screenTop hframe :)
  have hcols : s.cols = t.cols := (congrArg Terminal.cols hframe :)
  have hattrs : s.attrs = t.attrs := (congrArg Terminal.attrs hframe :)
  rw [← htop] at hs'
  obtain ⟨hsame', hshown'⟩ := screenRow_blankAbsRow hs'
  refine ⟨hsame'.trans hframe, fun row => ?_⟩
  show s'.screenRow row = _
  rw [hshown', hshown, hgrown.kept _ not_false, hgrown.kept _ not_false, scrolledRow,
    Terminal.blankShown, Terminal.blankShown, hcols, hattrs]
  by_cases hbottom : row = t.scrollBottom
  · rw [if_pos hbottom, if_pos hbottom]
  · rw [if_neg hbottom, if_neg hbottom]
    by_cases hmoved : t.scrollTop ≤ row ∧ row < t.scrollBottom
    · rw [if_pos hmoved, if_pos (by omega)]
    · rw [if_neg hmoved, if_neg (by omega)]

/-- The region moves down between the margins, and its top row is blanked. -/
theorem ChangesOnly.scrollRegionDown (h : t.scrollRegionDown = some t₁) :
    ChangesOnly (fun row => t.scrollTop ≤ row ∧ (row ≤ t.scrollBottom
      ∨ row = t.scrollTop)) t t₁ := by
  obtain ⟨s, hs, h⟩ := Option.bind_eq_some_iff.1 h
  obtain ⟨s', hs', h⟩ := Option.bind_eq_some_iff.1 h
  cases h
  have hmoved : ChangesOnly (fun row => t.scrollTop ≤ row ∧ (row ≤ t.scrollBottom
      ∨ row = t.scrollTop)) t s := by
    refine ChangesOnly.foldlM ?_ (.ensureAbsRow t _) hs
    intro row hrow s s' _ hcopy
    obtain ⟨habove, hbelow⟩ := List.mem_range'_1.1 (List.mem_reverse.1 hrow)
    exact ChangesOnly.copyRow row (row + 1) hcopy (by omega)
  have hmargin : s.scrollTop = t.scrollTop :=
    (congrArg Terminal.scrollTop hmoved.same :)
  have hblank : ChangesOnly (fun row => t.scrollTop ≤ row ∧ (row ≤ t.scrollBottom
      ∨ row = t.scrollTop)) s s' := .blankAbsRow hs' ⟨hmargin.ge, .inr hmargin⟩
  exact (hmoved.trans hblank).trans ⟨rfl, fun _ _ => rfl⟩

/-- Lines are inserted and deleted between the cursor and the lower margin. -/
theorem ChangesOnly.editLines {n : Nat} {edit : Terminal → Option Terminal}
    (hedit : ∀ s s', s.cursorY = t.cursorY → s.scrollBottom = t.scrollBottom →
      t.cursorY ≤ t.scrollBottom → edit s = some s' →
      ChangesOnly (fun row => t.cursorY ≤ row ∧ row ≤ t.scrollBottom) s s')
    (h : t.editLines n edit = some t₁) :
    ChangesOnly (fun row => t.scrollTop ≤ row ∧ row ≤ t.scrollBottom) t t₁ := by
  rw [Terminal.editLines] at h
  split at h
  · cases h
    exact .refl t
  · rename_i hwithin
    simp only [Bool.or_eq_true, decide_eq_true_eq, not_or, Nat.not_lt] at hwithin
    obtain ⟨s, hs, h⟩ := Option.bind_eq_some_iff.1 h
    cases h
    have hlines : ChangesOnly (fun row => t.cursorY ≤ row ∧ row ≤ t.scrollBottom)
        t s := by
      refine ChangesOnly.foldlM ?_ (.ensureAbsRow t _) hs
      intro _ _ s₁ s₂ hkept hline
      have hcursor : s₁.cursorY = t.cursorY :=
        (congrArg Terminal.cursorY hkept.same :)
      have hmargin : s₁.scrollBottom = t.scrollBottom :=
        (congrArg Terminal.scrollBottom hkept.same :)
      exact hedit s₁ s₂ hcursor hmargin hwithin.2 hline
    refine ⟨hlines.same, fun row hrow => hlines.kept row ?_⟩
    omega

theorem ChangesOnly.insertLine {s s' : Terminal} (hcursor : s.cursorY = t.cursorY)
    (hmargin : s.scrollBottom = t.scrollBottom) (hwithin : t.cursorY ≤ t.scrollBottom)
    (h : s.insertLine = some s') :
    ChangesOnly (fun row => t.cursorY ≤ row ∧ row ≤ t.scrollBottom) s s' := by
  obtain ⟨s₁, hs₁, h⟩ := Option.bind_eq_some_iff.1 h
  have hmoved : ChangesOnly (fun row => t.cursorY ≤ row ∧ row ≤ t.scrollBottom)
      s s₁ := by
    refine ChangesOnly.foldlM ?_ (.refl s) hs₁
    intro row hrow s₂ s₃ _ hcopy
    obtain ⟨habove, hbelow⟩ := List.mem_range'_1.1 (List.mem_reverse.1 hrow)
    exact ChangesOnly.copyRow row (row + 1) hcopy (by omega)
  have hsame : s₁.cursorY = s.cursorY := (congrArg Terminal.cursorY hmoved.same :)
  exact hmoved.trans (ChangesOnly.blankAbsRow h (by omega))

theorem ChangesOnly.deleteLine {s s' : Terminal} (hcursor : s.cursorY = t.cursorY)
    (hmargin : s.scrollBottom = t.scrollBottom) (hwithin : t.cursorY ≤ t.scrollBottom)
    (h : s.deleteLine = some s') :
    ChangesOnly (fun row => t.cursorY ≤ row ∧ row ≤ t.scrollBottom) s s' := by
  obtain ⟨s₁, hs₁, h⟩ := Option.bind_eq_some_iff.1 h
  have hmoved : ChangesOnly (fun row => t.cursorY ≤ row ∧ row ≤ t.scrollBottom)
      s s₁ := by
    refine ChangesOnly.foldlM ?_ (.refl s) hs₁
    intro row hrow s₂ s₃ _ hcopy
    obtain ⟨habove, hbelow⟩ := List.mem_range'_1.1 hrow
    exact ChangesOnly.copyRow (row + 1) row hcopy (by omega)
  have hsame : s₁.scrollBottom = s.scrollBottom :=
    (congrArg Terminal.scrollBottom hmoved.same :)
  exact hmoved.trans (ChangesOnly.blankAbsRow h (by omega))

-- ============================= the margins

/-- The rows of the screen and its margins. -/
def Terminal.margins (t : Terminal) : Nat × Nat × Nat :=
  (t.rows, t.scrollTop, t.scrollBottom)

/-- The margins are in order, or the lower one is on the last row. -/
def Margins : Nat × Nat × Nat → Prop
  | (rows, scrollTop, scrollBottom) =>
    scrollTop ≤ scrollBottom ∨ scrollBottom = rows - 1

theorem ChangesOnly.margins {touched : Nat → Prop} (h : ChangesOnly touched t t₁) :
    t₁.margins = t.margins :=
  (congrArg Terminal.margins h.same :)

theorem margins_dropRows (t : Terminal) (count : Nat) :
    (t.dropRows count).markAllDirty.margins = t.margins := rfl

theorem margins_scrollScreen (h : t.scrollScreen = some t₁) :
    t₁.margins = t.margins := by
  obtain ⟨s, hs, h⟩ := Option.bind_eq_some_iff.1 h
  obtain ⟨s', hs', h⟩ := Option.bind_eq_some_iff.1 h
  cases h
  obtain ⟨hsame, -⟩ := screenRow_blankAbsRow hs
  have hblank : s.margins = t.margins := (congrArg Terminal.margins hsame :)
  rw [Terminal.trimScrollback] at hs'
  split at hs'
  · cases hs'
    exact (margins_dropRows s s.excess).trans hblank
  · cases hs'

theorem margins_lineFeed (h : t.lineFeed = some t₁) : t₁.margins = t.margins := by
  rw [Terminal.lineFeed] at h
  split at h
  · by_cases hfull : t.fullScreen = true
    · rw [Terminal.scrollRegion, if_pos hfull] at h
      exact margins_scrollScreen h
    · exact (congrArg Terminal.margins (screenRow_scrollRegion hfull h).1 :)
  · cases h
    rfl

/-- A row that wraps is marked, and keeps its cells. -/
theorem ChangesOnly.markCurrentRowWrapped {touched : Nat → Prop}
    (h : t.markCurrentRowWrapped = some t₁) : ChangesOnly touched t t₁ :=
  (ChangesOnly.ensureAbsRow t _).trans (ChangesOnly.setWrapped h)

theorem margins_wrapPending (h : t.wrapPending = some t₁) :
    t₁.margins = t.margins := by
  rw [Terminal.wrapPending] at h
  split at h
  · split at h
    · obtain ⟨s, hs, h⟩ := Option.bind_eq_some_iff.1 h
      have hmarked : ChangesOnly (fun _ => True) t s := .markCurrentRowWrapped hs
      exact (margins_lineFeed h).trans hmarked.margins
    · cases h
      rfl
  · cases h
    rfl

theorem margins_printChar {ch : Char}
    (h : t.printChar charWidth ch = some t₁) : t₁.margins = t.margins := by
  obtain ⟨s, hs, h⟩ := Option.bind_eq_some_iff.1 h
  obtain ⟨s', hs', h⟩ := Option.bind_eq_some_iff.1 h
  cases h
  have hput : s'.margins = s.margins :=
    (congrArg Terminal.margins (shownRow_editRow hs').1 :)
  exact hput.trans (margins_wrapPending hs)

theorem ChangesOnly.eraseRow {row start stop : Nat}
    (h : t.eraseRow row start stop = some t₁) :
    ChangesOnly (fun _ => True) t t₁ := by
  obtain ⟨s, hs, h⟩ := Option.bind_eq_some_iff.1 h
  obtain ⟨s', hs', h⟩ := Option.bind_eq_some_iff.1 h
  cases h
  have hedit : ChangesOnly (fun _ => True) t s := .editRow hs trivial
  exact hedit.trans ((ChangesOnly.setWrapped hs').trans ⟨rfl, fun _ _ => rfl⟩)

theorem ChangesOnly.editChars {shift : Nat}
    (h : t.editChars shift edit = some t₁) : ChangesOnly (fun _ => True) t t₁ := by
  rw [Terminal.editChars] at h
  have hgrown : ChangesOnly (fun _ => True) t
      (t.ensureAbsRow (t.screenTop + t.cursorY)) := .ensureAbsRow t _
  split at h
  · obtain ⟨s, hs, h⟩ := Option.bind_eq_some_iff.1 h
    obtain ⟨s', hs', h⟩ := Option.bind_eq_some_iff.1 h
    cases h
    have hedit : ChangesOnly (fun _ => True) t s :=
      hgrown.trans (.editRow hs trivial)
    exact hedit.trans ((ChangesOnly.setWrapped hs').trans ⟨rfl, fun _ _ => rfl⟩)
  · obtain ⟨_, _, h⟩ := Option.bind_eq_some_iff.1 h
    cases h
    exact hgrown

theorem margins_moveLeft (t : Terminal) (count : Nat) :
    (t.moveLeft count).margins = t.margins := by
  induction count generalizing t with
  | zero => rfl
  | succ count ih =>
    rw [Terminal.moveLeft]
    split
    · exact ih _
    · split
      · exact ih _
      · rfl

theorem margins_moveRight (t : Terminal) (count : Nat) :
    (t.moveRight count).margins = t.margins := by
  induction count generalizing t with
  | zero => rfl
  | succ count ih =>
    rw [Terminal.moveRight]
    split
    · exact ih _
    · split
      · exact ih _
      · rfl

theorem margins_moveCursor (t : Terminal) (dx dy : Int) :
    (t.moveCursor dx dy).margins = t.margins := by
  rw [Terminal.moveCursor]
  split
  · show (t.moveCursorHorizontal dx).margins = _
    rw [Terminal.moveCursorHorizontal]
    split
    · exact margins_moveLeft t _
    · exact margins_moveRight t _
  · rfl

theorem margins_tabForward (t : Terminal) (count : Nat) :
    (t.tabForward count).margins = t.margins := by
  unfold Terminal.tabForward
  generalize List.range (max count 1) = steps
  induction steps generalizing t with
  | nil => rfl
  | cons step steps ih => exact ih t.tab

/-- DECSTBM puts the margins in order, or leaves them. -/
theorem margins_setScrollRegion (t : Terminal) (top bottom : Option Nat)
    (h : Margins t.margins) : Margins (t.setScrollRegion top bottom).margins := by
  rcases top with _ | top
  · rcases bottom with _ | bottom
    · exact .inr rfl
    · exact h
  · rcases bottom with _ | bottom
    · exact .inr rfl
    · by_cases hordered : min (top - 1) (t.rows - 1) < min (bottom - 1) (t.rows - 1)
      · simp only [Terminal.setScrollRegion, if_pos hordered]
        exact .inl (Nat.le_of_lt hordered)
      · simp only [Terminal.setScrollRegion, if_neg hordered]
        exact h

theorem margins_leaveAltScreen (t : Terminal) (h : Margins t.margins) :
    Margins t.leaveAltScreen.margins := by
  rw [Terminal.leaveAltScreen]
  split
  · exact h
  · exact .inr rfl

theorem run_margins {call : Call} (h : Margins t.margins)
    (hrun : t.run charWidth call = some t₁) : Margins t₁.margins := by
  have hkept : t₁.margins = t.margins → Margins t₁.margins := fun hsame => hsame ▸ h
  cases call with
  | printChar ch => exact hkept (margins_printChar hrun)
  | executeByte byte =>
    rw [Terminal.run, Terminal.executeByte] at hrun
    split at hrun
    · exact hkept (margins_lineFeed hrun)
    · apply hkept
      split at hrun
      · cases hrun
        rfl
      · split at hrun
        · cases hrun
          rfl
        · split at hrun <;> (cases hrun; rfl)
  | reverseIndex =>
    rw [Terminal.run, Terminal.reverseIndex] at hrun
    split at hrun
    · exact hkept (ChangesOnly.scrollRegionDown hrun).margins
    · cases hrun
      exact h
  | tabForward count =>
    cases hrun
    exact hkept (margins_tabForward t count)
  | moveCursor dx dy =>
    cases hrun
    exact hkept (margins_moveCursor t dx dy)
  | restoreCursorFull =>
    cases hrun
    apply hkept
    rw [Terminal.restoreCursorFull]
    split <;> rfl
  | restoreCursorPos =>
    cases hrun
    apply hkept
    rw [Terminal.restoreCursorPos]
    split <;> rfl
  | setScrollRegion top bottom =>
    cases hrun
    exact margins_setScrollRegion t top bottom h
  | clearScreen =>
    cases hrun
    exact .inr rfl
  | clearScreenFromCursor | clearScreenToCursor =>
    apply hkept
    have herased : ChangesOnly (fun _ => True) t t₁ :=
      ChangesOnly.foldlM (fun _ _ _ _ _ hs => .eraseRow hs) (.ensureAbsRow t _) hrun
    exact herased.margins
  | clearLineFromCursor | clearLineToCursor | eraseChars n =>
    apply hkept
    have hgrown : ChangesOnly (fun _ => True) t
        (t.ensureAbsRow (t.screenTop + t.cursorY)) := .ensureAbsRow t _
    exact (hgrown.trans (.eraseRow hrun)).margins
  | clearLine =>
    apply hkept
    obtain ⟨s, hs, hrun⟩ := Option.bind_eq_some_iff.1 hrun
    cases hrun
    exact (congrArg Terminal.margins (screenRow_blankAbsRow hs).1 :)
  | insertChars n | deleteChars n => exact hkept (ChangesOnly.editChars hrun).margins
  | insertLines n =>
    exact hkept (ChangesOnly.editLines
      (fun _ _ hcursor hmargin => .insertLine hcursor hmargin) hrun).margins
  | deleteLines n =>
    exact hkept (ChangesOnly.editLines
      (fun _ _ hcursor hmargin => .deleteLine hcursor hmargin) hrun).margins
  | enterAltScreen clear =>
    cases hrun
    rw [Terminal.enterAltScreen]
    split
    · exact h
    · split <;> exact .inr rfl
  | leaveAltScreen =>
    cases hrun
    exact margins_leaveAltScreen t h
  | resetTerminal =>
    cases hrun
    exact .inr rfl
  | setCursorVisible visible =>
    cases hrun
    apply hkept
    rw [Terminal.setCursorVisible]
    split <;> rfl
  | clearTabStop mode =>
    cases hrun
    apply hkept
    rw [Terminal.clearTabStop]
    split <;> rfl
  | tabBackward _ | setCursor _ _ | cursorAbsoluteCol _ | cursorAbsoluteRow _
  | cursorNextLine _ | cursorPrevLine _ | saveCursorFull | saveCursorPos
  | setAutoWrap _ | setBracketedPaste _ | setMouseTracking _ | setSgrMouse _
  | setApplicationCursorKeys _ | setApplicationKeypad _ | setTabStop | setSgr _ =>
    cases hrun
    exact h

theorem op_margins {op : TerminalOp} (h : Margins t.margins)
    (hop : t.op charWidth op = some t₁) : Margins t₁.margins := by
  have hbottom : ∀ s : Terminal, s.scrollToBottom.margins = s.margins := by
    intro s
    rw [Terminal.scrollToBottom]
    split <;> rfl
  cases op with
  | write actions =>
    obtain ⟨s, hs, hsettled⟩ := Option.bind_eq_some_iff.1 hop
    cases hsettled
    have hwritten : Margins s.margins :=
      execM_keeps (fun _ _ _ hs hrun => run_margins hs hrun) h hs
    rw [Terminal.settle]
    split
    · rw [hbottom]
      exact hwritten
    · exact hwritten
  | resize cols rows =>
    cases hop
    exact .inr rfl
  | scrollView deltaLines =>
    cases hop
    have hsame : (t.scrollView deltaLines).margins = t.margins := by
      rw [Terminal.scrollView]
      split
      · rfl
      · dsimp only
        split <;> split <;> rfl
    rw [hsame]
    exact h
  | scrollToBottom =>
    cases hop
    rw [hbottom]
    exact h
  | snapshot =>
    cases hop
    exact h
  | dirtySnapshot =>
    cases hop
    exact h

-- =========================== the line feed

/-- Two terminals of one screen. -/
structure SameScreen (t t₁ : Terminal) : Prop where
  margins : t₁.margins = t.margins
  cursorY : t₁.cursorY = t.cursorY
  shown : ∀ row, t₁.screenRow row = t.screenRow row
  blank : t₁.blankShown = t.blankShown

theorem SameScreen.confined {feeds : Prop} (h : SameScreen t t₁) :
    Confined feeds t₁ t₂ ↔ Confined feeds t t₂ := by
  have hrows : t₁.rows = t.rows := congrArg Prod.fst h.margins
  have htop : t₁.scrollTop = t.scrollTop := congrArg (·.2.1) h.margins
  have hbottom : t₁.scrollBottom = t.scrollBottom := congrArg (·.2.2) h.margins
  constructor
  · rintro ⟨houtside, hbelow⟩
    simp only [h.shown, h.cursorY, hrows, htop, hbottom] at houtside hbelow
    exact ⟨houtside, hbelow⟩
  · rintro ⟨houtside, hbelow⟩
    constructor
    · simpa only [h.shown, h.cursorY, hrows, htop, hbottom] using houtside
    · simpa only [h.shown, h.cursorY, hrows, htop, hbottom] using hbelow

theorem SameScreen.unseeing (h : SameScreen t t₁) : Unseeing t₁ ↔ Unseeing t := by
  have hrows : t₁.rows = t.rows := congrArg Prod.fst h.margins
  have htop : t₁.scrollTop = t.scrollTop := congrArg (·.2.1) h.margins
  have hbottom : t₁.scrollBottom = t.scrollBottom := congrArg (·.2.2) h.margins
  rw [Unseeing, Unseeing, h.cursorY, hrows, htop, hbottom, h.blank]
  simp only [h.shown]

theorem SameScreen.feedsWithin (h : SameScreen t t₁) :
    FeedsWithin t₁ ↔ FeedsWithin t := by
  have htop : t₁.scrollTop = t.scrollTop := congrArg (·.2.1) h.margins
  have hbottom : t₁.scrollBottom = t.scrollBottom := congrArg (·.2.2) h.margins
  rw [FeedsWithin, FeedsWithin, Ordered, Ordered, h.cursorY, htop, hbottom]

/-- A scroll that shows nothing found blank rows. -/
theorem blank_of_scrolled
    (h : ∀ row ≤ t.scrollBottom, t.scrollTop ≤ row ∨ row = t.scrollBottom →
      scrolledRow t row = t.screenRow row) :
    ∀ row ≤ t.scrollBottom, t.scrollTop ≤ row ∨ row = t.scrollBottom →
      t.screenRow row = t.blankShown := by
  -- from the lower margin up, a row was the one below it
  have hup : ∀ above row, row + above = t.scrollBottom →
      t.scrollTop ≤ row ∨ row = t.scrollBottom → t.screenRow row = t.blankShown := by
    intro above
    induction above with
    | zero =>
      intro row hrow hwithin
      have hsame := h row (by omega) hwithin
      rw [scrolledRow, if_pos (by omega)] at hsame
      exact hsame.symm
    | succ above ih =>
      intro row hrow hwithin
      have hsame := h row (by omega) hwithin
      rw [scrolledRow, if_neg (by omega), if_pos (by omega)] at hsame
      rw [← hsame]
      exact ih (row + 1) (by omega) (by omega)
  intro row hrow hwithin
  exact hup (t.scrollBottom - row) row (by omega) hwithin

theorem scrolledRow_of_blank
    (h : ∀ row ≤ t.scrollBottom, t.scrollTop ≤ row ∨ row = t.scrollBottom →
      t.screenRow row = t.blankShown) (row : Nat) :
    scrolledRow t row = t.screenRow row := by
  rw [scrolledRow]
  by_cases hbottom : row = t.scrollBottom
  · rw [if_pos hbottom, h row (by omega) (.inr hbottom)]
  · rw [if_neg hbottom]
    by_cases hmoved : t.scrollTop ≤ row ∧ row < t.scrollBottom
    · rw [if_pos hmoved, h row (by omega) (.inl hmoved.1),
        h (row + 1) (by omega) (.inl (by omega))]
    · rw [if_neg hmoved]

/-- A line feed is confined just if it is within the margins, or shows nothing. -/
theorem lineFeed_confined (hcursor : t.cursorY < t.rows)
    (hmargin : t.scrollBottom < t.rows) (h : t.lineFeed = some t₁) :
    Confined True t t₁ ↔ FeedsWithin t ∨ Unseeing t := by
  rw [Terminal.lineFeed] at h
  by_cases habove : t.cursorY < t.scrollBottom
  · rw [if_neg (by omega)] at h
    cases h
    refine ⟨fun _ => .inl (.inl habove), fun _ => ⟨fun _ _ _ => rfl, fun _ hbelow => ?_⟩⟩
    omega
  rw [if_pos (by omega)] at h
  by_cases hfull : t.fullScreen = true
  · have hall : t.scrollTop = 0 ∧ t.scrollBottom = t.rows - 1 := by
      simp only [Terminal.fullScreen, Bool.and_eq_true, beq_iff_eq] at hfull
      exact ⟨hfull.1.2, hfull.2⟩
    have hordered : Ordered t := by
      rw [Ordered, hall.1]
      exact Nat.zero_le _
    refine ⟨fun _ => .inl (.inr ⟨by omega, hordered⟩), fun _ => ⟨?_, ?_⟩⟩
    · intro row hrow hout
      omega
    · intro _ hbelow
      omega
  obtain ⟨hsame, hshown⟩ := screenRow_scrollRegion hfull h
  have hstays : t₁.cursorY = t.cursorY := (congrArg Terminal.cursorY hsame :)
  constructor
  · rintro ⟨houtside, hbelow⟩
    simp only [hshown, hstays] at houtside hbelow
    by_cases hlower : t.scrollBottom < t.cursorY
    · obtain ⟨hlast, hkept⟩ := hbelow trivial hlower
      refine .inr ⟨.inr (by omega), blank_of_scrolled fun row hrow _ => ?_⟩
      exact hkept row (by omega)
    · by_cases hordered : Ordered t
      · exact .inl (.inr ⟨by omega, hordered⟩)
      · rw [Ordered, Nat.not_le] at hordered
        refine .inr ⟨.inl (by omega), blank_of_scrolled fun row hrow _ => ?_⟩
        exact houtside row (by omega) (.inl (by omega))
  · rintro ((hwithin | ⟨hlower, hordered⟩) | ⟨hcursor', hblank⟩)
    · exact absurd hwithin habove
    · rw [Ordered] at hordered
      refine ⟨fun row hrow hout => ?_, fun _ hbelow => by omega⟩
      rw [hshown, scrolledRow, if_neg (by omega), if_neg (by omega)]
    · have hkept := scrolledRow_of_blank hblank
      refine ⟨fun row _ _ => (hshown row).trans (hkept row), fun _ hbelow => ⟨?_, ?_⟩⟩
      · rw [hstays]
        omega
      · exact fun row _ => (hshown row).trans (hkept row)

-- ================================= results

/-- In every state that is reached, a command that scrolls is confined just if it
feeds no line, or feeds it within the margins, or shows nothing. -/
theorem scroll_confined (charWidth : CharWidth) (cols rows : Nat)
    (ops : List TerminalOp) (before : List Call) (t₀ t t' : Terminal)
    (command : ScrollCommand)
    (hops : execM (Terminal.op charWidth) (.new cols rows) ops = some t₀)
    (hbefore : execM (Terminal.run charWidth) t₀ before = some t)
    (hscroll : t.scrollBy command = some t') :
    Confined (t.feedsLine command) t t' ↔
      (t.feedsLine command → FeedsWithin t ∨ Unseeing t) := by
  have hshape : Shape t := execM_keeps (fun _ _ _ hs hrun => run_shape hs hrun)
    (execM_keeps (fun _ _ _ hs hop => op_shape hs hop) (new_shape cols rows) hops)
    hbefore
  have hstart : Margins (Terminal.new cols rows).margins := .inr rfl
  have hmargins₀ : Margins t₀.margins :=
    execM_keeps (fun _ _ _ hs hop => op_margins hs hop) hstart hops
  have hmargins : Margins t.margins :=
    execM_keeps (fun _ _ _ hs hrun => run_margins hs hrun) hmargins₀ hbefore
  have hno : ∀ {touched : Nat → Prop}, ChangesOnly touched t t' →
      (∀ row < t.rows, row < t.scrollTop ∨ t.scrollBottom < row → ¬ touched row) →
      Confined False t t' :=
    fun hchanges hwithin =>
      ⟨fun row hrow hout => hchanges.kept row (hwithin row hrow hout), False.elim⟩
  cases command with
  | lineFeed =>
    have hline := lineFeed_confined hshape.cursorY hshape.margin hscroll
    exact ⟨fun h _ => hline.1 h, fun h => hline.2 (h trivial)⟩
  | wrap =>
    rw [Terminal.scrollBy, Terminal.wrapPending] at hscroll
    by_cases hfeeds : t.feedsLine .wrap
    · rw [if_pos hfeeds.1, if_pos hfeeds.2] at hscroll
      obtain ⟨s, hs, hfeed⟩ := Option.bind_eq_some_iff.1 hscroll
      have hmarked : ChangesOnly (fun _ => False) t s := .markCurrentRowWrapped hs
      have hscreen : SameScreen t { s with cursorX := 0 } :=
        ⟨hmarked.margins, (congrArg Terminal.cursorY hmarked.same :),
          fun row => hmarked.kept row not_false,
          (congrArg Terminal.blankShown hmarked.same :)⟩
      have hrows : s.rows = t.rows := (congrArg Terminal.rows hmarked.same :)
      have hcursor : s.cursorY < s.rows := by
        rw [hrows, show s.cursorY = t.cursorY from hscreen.cursorY]
        exact hshape.cursorY
      have hmargin : s.scrollBottom < s.rows := by
        rw [hrows, show s.scrollBottom = t.scrollBottom from
          (congrArg Terminal.scrollBottom hmarked.same :)]
        exact hshape.margin
      have hline := lineFeed_confined (t := { s with cursorX := 0 }) hcursor hmargin
        hfeed
      rw [hscreen.confined, hscreen.feedsWithin, hscreen.unseeing] at hline
      rw [show Confined (t.feedsLine .wrap) t t' ↔ Confined True t t' by
        rw [eq_true hfeeds], hline]
      exact ⟨fun h _ => h, fun h => h hfeeds⟩
    · refine ⟨fun _ h => absurd h hfeeds, fun _ => ⟨fun _ _ _ => ?_, fun h =>
        absurd h hfeeds⟩⟩
      split at hscroll
      · rename_i hpending
        rw [if_neg fun hwraps => hfeeds ⟨hpending, hwraps⟩] at hscroll
        cases hscroll
        rfl
      · cases hscroll
        rfl
  | reverseIndex =>
    refine ⟨fun _ => False.elim, fun _ => ?_⟩
    rw [Terminal.scrollBy, Terminal.reverseIndex] at hscroll
    split at hscroll
    · refine hno (ChangesOnly.scrollRegionDown hscroll) fun row hrow hout => ?_
      rcases hmargins with hordered | hlast
      · omega
      · omega
    · cases hscroll
      exact ⟨fun _ _ _ => rfl, False.elim⟩
  | insertLines n =>
    refine ⟨fun _ => False.elim, fun _ => hno (ChangesOnly.editLines
      (fun _ _ hcursor hmargin => .insertLine hcursor hmargin) hscroll) ?_⟩
    intro row _ hout
    omega
  | deleteLines n =>
    refine ⟨fun _ => False.elim, fun _ => hno (ChangesOnly.editLines
      (fun _ _ hcursor hmargin => .deleteLine hcursor hmargin) hscroll) ?_⟩
    intro row _ hout
    omega

/-- A line feed on the lower margin of a region in the middle. -/
theorem scroll_confined_bottom :
    ∃ t t', (Terminal.new 1 4).setScrollRegion (some 2) (some 3) = t
      ∧ (t.setCursor 0 2).lineFeed = some t'
      ∧ (Confined True (t.setCursor 0 2) t' ↔
        (True → FeedsWithin (t.setCursor 0 2) ∨ Unseeing (t.setCursor 0 2))) :=
  ⟨_, _, rfl, rfl, scroll_confined (fun _ => some 1) 1 4 []
    [.setScrollRegion (some 2) (some 3), .setCursor 0 2] (.new 1 4) _ _ .lineFeed
    rfl rfl rfl⟩

/-- Below a region of the two upper rows a line feed scrolls it. -/
theorem not_confined_below :
    ¬ ∀ (charWidth : CharWidth) (cols rows : Nat) (ops : List TerminalOp)
      (before : List Call) (t₀ t t' : Terminal) (command : ScrollCommand),
      execM (Terminal.op charWidth) (.new cols rows) ops = some t₀ →
      execM (Terminal.run charWidth) t₀ before = some t →
      t.scrollBy command = some t' → Confined (t.feedsLine command) t t' := by
  intro h
  have hconfined := h (fun _ => some 1) 1 3 []
    [.printChar 'a', .setScrollRegion (some 1) (some 2), .setCursor 0 2]
    (.new 1 3) _ _ .lineFeed rfl rfl rfl
  have hrow := (hconfined.below trivial (by decide)).2 0 (by decide)
  revert hrow
  decide

end RemoteDesk.TerminalCore
