/-
The terminal and what an escape sequence can ask of it
(rustdesk_ffi/src/terminal_core/terminal.rs).

`buffer` holds the scrollback and the screen: row `r` of the screen is row
`screenTop + r` of the buffer, and the view shows `rows` rows from `viewTop`
on. A function that indexes the buffer is partial; `none` is the panic of an
index that is out of bounds.
-/
import RemoteDesk.TerminalCore.Grid

namespace RemoteDesk.TerminalCore

-- =================================== state

def MAX_SCROLLBACK : Nat := 3000

structure SavedCursor where
  x : Nat
  y : Nat
  attrs : CellAttrs
deriving DecidableEq, Repr

/-- The main screen while the alternate one is active (the `main_*` fields). -/
structure MainScreen where
  buffer : List Row := []
  wrappedRows : List Bool := []
  screenTop : Nat := 0
  viewTop : Nat := 0
  cursorX : Nat := 0
  cursorY : Nat := 0
  attrs : CellAttrs := {}
deriving DecidableEq, Repr

structure Terminal where
  cols : Nat
  rows : Nat
  cursorX : Nat := 0
  cursorY : Nat := 0
  screenTop : Nat := 0
  viewTop : Nat := 0
  buffer : List Row
  wrappedRows : List Bool
  dirtyRows : List Nat
  attrs : CellAttrs := {}
  cursorVisible : Bool := true
  autoWrap : Bool := true
  bracketedPaste : Bool := false
  mouseTracking : Nat := 0
  sgrMouse : Bool := false
  applicationCursorKeys : Bool := false
  applicationKeypad : Bool := false
  tabStops : List Bool
  altActive : Bool := false
  main : MainScreen := {}
  savedCursor : Option SavedCursor := none
  scrollTop : Nat := 0
  scrollBottom : Nat
deriving DecidableEq, Repr

def defaultTabStops (cols : Nat) : List Bool :=
  (List.range cols).map fun index => index % 8 == 0

def signedClamp (base : Nat) (delta : Int) (limit : Nat) : Nat :=
  min (if delta ≥ 0 then base + delta.toNat else base - delta.natAbs) limit

structure TerminalSnapshot where
  cols : Nat
  rows : Nat
  cursorX : Nat
  cursorY : Nat
  cursorVisible : Bool
  bracketedPaste : Bool
  mouseTracking : Nat
  sgrMouse : Bool
  applicationCursorKeys : Bool
  applicationKeypad : Bool
  autoWrap : Bool
  viewTop : Nat
  screenTop : Nat
  isAtBottom : Bool
  dirtyRows : List Nat
  cells : List SnapshotCell
deriving DecidableEq, Repr

/-- The columns of a character (`UnicodeWidthChar::width`). -/
abbrev CharWidth := Char → Option Nat

namespace Terminal

def new (cols rows : Nat) : Terminal where
  cols := max cols 1
  rows := max rows 1
  buffer := List.replicate (max rows 1) (blankRow (max cols 1) {})
  wrappedRows := List.replicate (max rows 1) false
  dirtyRows := List.range (max rows 1)
  tabStops := defaultTabStops (max cols 1)
  scrollBottom := max rows 1 - 1

def isAtBottom (t : Terminal) : Bool := t.viewTop ≥ t.screenTop

def maxScreenTop (t : Terminal) : Nat := t.buffer.length - t.rows

-- ============================= dirty marks

def markDirty (t : Terminal) (row : Nat) : Terminal :=
  { t with
    dirtyRows :=
      if row < t.rows && !t.dirtyRows.contains row then t.dirtyRows ++ [row]
      else t.dirtyRows }

def markAllDirty (t : Terminal) : Terminal :=
  { t with dirtyRows := List.range t.rows }

def markCursorMoved (t : Terminal) (oldY : Nat) : Terminal :=
  (t.markDirty oldY).markDirty t.cursorY

-- ================================== buffer

/-- Blank rows are pushed until the buffer has the row. -/
def ensureAbsRow (t : Terminal) (absRow : Nat) : Terminal :=
  { t with
    buffer := t.buffer
      ++ List.replicate (absRow + 1 - t.buffer.length) (blankRow t.cols t.attrs)
    wrappedRows := t.wrappedRows
      ++ List.replicate (absRow + 1 - t.buffer.length) false }

/-- `self.buffer[abs_row]` is rewritten. -/
def editRow (t : Terminal) (absRow : Nat) (edit : Row → Option Row) :
    Option Terminal := do
  let row ← edit (← t.buffer[absRow]?)
  some { t with buffer := t.buffer.set absRow row }

/-- `self.wrapped_rows[abs_row] = wrapped` -/
def setWrapped (t : Terminal) (absRow : Nat) (wrapped : Bool) :
    Option Terminal :=
  if absRow < t.wrappedRows.length then
    some { t with wrappedRows := t.wrappedRows.set absRow wrapped }
  else none

/-- A row and its flag are cloned to another place. -/
def copyRow (t : Terminal) (source target : Nat) : Option Terminal := do
  let row ← t.buffer[source]?
  let t ← t.editRow target fun _ => some row
  t.setWrapped target (← t.wrappedRows[source]?)

/-- A row is replaced by a blank one. -/
def blankAbsRow (t : Terminal) (absRow : Nat) : Option Terminal := do
  let t ← t.editRow absRow fun _ => some (blankRow t.cols t.attrs)
  t.setWrapped absRow false

/-- Rows are removed from the front of the buffer. -/
def dropRows (t : Terminal) (count : Nat) : Terminal :=
  { t with
    buffer := t.buffer.drop count
    wrappedRows := t.wrappedRows.drop count
    screenTop := t.screenTop - count
    viewTop := t.viewTop - count }

/-- The rows that are too many. -/
def excess (t : Terminal) : Nat := t.buffer.length - MAX_SCROLLBACK

/-- The scrollback is trimmed; a flag that is not there cannot be removed. -/
def trimScrollback (t : Terminal) : Option Terminal :=
  if t.excess ≤ t.wrappedRows.length then some (t.dropRows t.excess) else none

-- =============================== scrolling

/-- The screen moves down the buffer by a row, and a view at its bottom
follows. -/
def advanceScreen (t : Terminal) : Terminal :=
  { t with
    screenTop := t.screenTop + 1
    viewTop :=
      if t.isAtBottom then t.screenTop + 1
      else min t.viewTop (t.screenTop + 1) }

/-- The whole main screen moves up by a row, into the scrollback. -/
def scrollScreen (t : Terminal) : Option Terminal := do
  let t := t.advanceScreen
  let absBottom := t.screenTop + (t.rows - 1)
  let t ← (t.ensureAbsRow absBottom).blankAbsRow absBottom
  let t ← t.trimScrollback
  some t.markAllDirty

/-- Whether a line feed at the bottom moves the whole main screen. -/
def fullScreen (t : Terminal) : Bool :=
  !t.altActive && t.scrollTop == 0 && t.scrollBottom == t.rows - 1

def scrollRegion (t : Terminal) : Option Terminal :=
  if t.fullScreen then t.scrollScreen
  else do
    let absBottom := t.screenTop + t.scrollBottom
    let t ← (List.range' t.scrollTop (t.scrollBottom - t.scrollTop)).foldlM
      (fun t row => t.copyRow (t.screenTop + row + 1) (t.screenTop + row))
      (t.ensureAbsRow absBottom)
    let t ← t.blankAbsRow absBottom
    some t.markAllDirty

def scrollRegionDown (t : Terminal) : Option Terminal := do
  let t ← (List.range' t.scrollTop
    (t.scrollBottom - t.scrollTop)).reverse.foldlM
    (fun t row => t.copyRow (t.screenTop + row) (t.screenTop + row + 1))
    (t.ensureAbsRow (t.screenTop + t.scrollBottom))
  let t ← t.blankAbsRow (t.screenTop + t.scrollTop)
  some t.markAllDirty

def lineFeed (t : Terminal) : Option Terminal :=
  if t.cursorY ≥ t.scrollBottom then t.scrollRegion
  else some ({ t with cursorY := t.cursorY + 1 }.markCursorMoved t.cursorY)

def reverseIndex (t : Terminal) : Option Terminal :=
  if t.cursorY ≤ t.scrollTop then t.scrollRegionDown
  else some ({ t with cursorY := t.cursorY - 1 }.markCursorMoved t.cursorY)

-- ================================ printing

def markCurrentRowWrapped (t : Terminal) : Option Terminal :=
  (t.ensureAbsRow (t.screenTop + t.cursorY)).setWrapped
    (t.screenTop + t.cursorY) true

/-- A cursor behind the last column wraps, or stays in it. -/
def wrapPending (t : Terminal) : Option Terminal :=
  if t.cursorX ≥ t.cols then
    if t.autoWrap then do
      let t ← t.markCurrentRowWrapped
      { t with cursorX := 0 }.lineFeed
    else some { t with cursorX := t.cols - 1 }
  else some t

/-- The cells of a character. -/
def putChar (t : Terminal) (ch : Char) (width : Nat) (row : Row) :
    Option Row := do
  let row ← setCell
    { ch
      attrs := t.attrs
      wide := width > 1 } row t.cursorX
  if width > 1 && t.cursorX + 1 < t.cols then
    setCell
      { ch := ' '
        attrs := t.attrs
        wideContinuation := true } row (t.cursorX + 1)
  else some row

def printChar (charWidth : CharWidth) (t : Terminal) (ch : Char) :
    Option Terminal := do
  let width := max ((charWidth ch).getD 1) 1
  let t ← t.wrapPending
  let absRow := t.screenTop + t.cursorY
  let t ← (t.ensureAbsRow absRow).editRow absRow (t.putChar ch width)
  let t := t.markDirty t.cursorY
  some { t with cursorX := min (t.cursorX + width) t.cols }

-- ================================== cursor

def carriageReturn (t : Terminal) : Terminal :=
  { t with cursorX := 0 }.markCursorMoved t.cursorY

def backspace (t : Terminal) : Terminal :=
  { t with cursorX := t.cursorX - 1 }.markCursorMoved t.cursorY

def nextTabStop (t : Terminal) : Nat :=
  ((List.range' (t.cursorX + 1) (t.cols - (t.cursorX + 1))).find?
    fun index => t.tabStops.getD index false).getD t.cols

def tab (t : Terminal) : Terminal :=
  { t with cursorX := t.nextTabStop }.markCursorMoved t.cursorY

def tabForward (t : Terminal) (count : Nat) : Terminal :=
  (List.range (max count 1)).foldl (fun t _ => t.tab) t

/-- The last stop before a column. -/
def previousTabStop (tabStops : List Bool) (cursorX : Nat) : Nat :=
  ((List.range (cursorX - 1 + 1)).reverse.find?
    fun index => tabStops.getD index false).getD 0

def tabBackward (t : Terminal) (count : Nat) : Terminal :=
  let cursorX := (List.range (max count 1)).foldl
    (fun cursorX _ => previousTabStop t.tabStops cursorX) t.cursorX
  { t with cursorX }.markCursorMoved t.cursorY

def canReverseWrapCursor (t : Terminal) : Bool :=
  if t.altActive || t.cursorY == 0 then false
  else if t.scrollTop != 0 || t.scrollBottom != t.rows - 1 then false
  else t.wrappedRows.getD (t.screenTop + t.cursorY - 1) false

def canForwardWrapCursor (t : Terminal) : Bool :=
  if t.altActive || t.cursorY ≥ t.rows - 1 then false
  else if t.scrollTop != 0 || t.scrollBottom != t.rows - 1 then false
  else t.wrappedRows.getD (t.screenTop + t.cursorY) false

/-- So many columns to the left, or as far as it goes. -/
def moveLeft (t : Terminal) : Nat → Terminal
  | 0 => t
  | count + 1 =>
    if t.cursorX > 0 then
      moveLeft { t with cursorX := t.cursorX - 1 } count
    else if t.canReverseWrapCursor then
      moveLeft
        { t with
          cursorY := t.cursorY - 1
          cursorX := t.cols - 1 } count
    else t

/-- So many columns to the right, or as far as it goes. -/
def moveRight (t : Terminal) : Nat → Terminal
  | 0 => t
  | count + 1 =>
    if t.cursorX < t.cols - 1 then
      moveRight { t with cursorX := t.cursorX + 1 } count
    else if t.canForwardWrapCursor then
      moveRight
        { t with
          cursorY := t.cursorY + 1
          cursorX := 0 } count
    else t

def moveCursorHorizontal (t : Terminal) (dx : Int) : Terminal :=
  if dx < 0 then t.moveLeft dx.natAbs else t.moveRight dx.toNat

def moveCursor (t : Terminal) (dx dy : Int) : Terminal :=
  if dy = 0 ∧ dx ≠ 0 then
    (t.moveCursorHorizontal dx).markCursorMoved t.cursorY
  else
    { t with
      cursorX := signedClamp t.cursorX dx (t.cols - 1)
      cursorY := signedClamp t.cursorY dy (t.rows - 1) }.markCursorMoved
        t.cursorY

def setCursor (t : Terminal) (x y : Nat) : Terminal :=
  { t with
    cursorX := min x (t.cols - 1)
    cursorY := min y (t.rows - 1) }.markCursorMoved t.cursorY

def cursorAbsoluteCol (t : Terminal) (col : Nat) : Terminal :=
  { t with cursorX := min (col - 1) (t.cols - 1) }.markCursorMoved t.cursorY

def cursorAbsoluteRow (t : Terminal) (row : Nat) : Terminal :=
  { t with cursorY := min (row - 1) (t.rows - 1) }.markCursorMoved t.cursorY

def cursorNextLine (t : Terminal) (n : Nat) : Terminal :=
  { t with
    cursorY := min (t.cursorY + n) (t.rows - 1)
    cursorX := 0 }.markCursorMoved t.cursorY

def cursorPrevLine (t : Terminal) (n : Nat) : Terminal :=
  { t with
    cursorY := t.cursorY - n
    cursorX := 0 }.markCursorMoved t.cursorY

def saveCursorFull (t : Terminal) : Terminal :=
  { t with savedCursor := some ⟨t.cursorX, t.cursorY, t.attrs⟩ }

def restoreCursorFull (t : Terminal) : Terminal :=
  match t.savedCursor with
  | some saved =>
    { t with
      cursorX := min saved.x (t.cols - 1)
      cursorY := min saved.y (t.rows - 1)
      attrs := saved.attrs }.markCursorMoved t.cursorY
  | none => t

def saveCursorPos (t : Terminal) : Terminal :=
  { t with
    savedCursor := some
      ⟨t.cursorX, t.cursorY, (t.savedCursor.getD ⟨0, 0, {}⟩).attrs⟩ }

def restoreCursorPos (t : Terminal) : Terminal :=
  match t.savedCursor with
  | some saved =>
    { t with
      cursorX := min saved.x (t.cols - 1)
      cursorY := min saved.y (t.rows - 1) }.markCursorMoved t.cursorY
  | none => t

def setScrollRegion (t : Terminal) (top bottom : Option Nat) : Terminal :=
  let t' :=
    match top, bottom with
    | none, none =>
      { t with
        scrollTop := 0
        scrollBottom := t.rows - 1 }
    | some top, none =>
      { t with
        scrollTop := min (top - 1) (t.rows - 1)
        scrollBottom := t.rows - 1 }
    | some top, some bottom =>
      if min (top - 1) (t.rows - 1) < min (bottom - 1) (t.rows - 1) then
        { t with
          scrollTop := min (top - 1) (t.rows - 1)
          scrollBottom := min (bottom - 1) (t.rows - 1) }
      else t
    | none, some _ => t
  { t' with
    cursorX := 0
    cursorY := 0 }.markCursorMoved t.cursorY

def setTabStop (t : Terminal) : Terminal :=
  { t with tabStops := t.tabStops.set (min t.cursorX (t.cols - 1)) true }

def clearTabStop (t : Terminal) (mode : Nat) : Terminal :=
  if mode = 3 then
    { t with tabStops := t.tabStops.map fun _ => false }
  else { t with tabStops := t.tabStops.set (min t.cursorX (t.cols - 1)) false }

def setCursorVisible (t : Terminal) (visible : Bool) : Terminal :=
  if t.cursorVisible ≠ visible then
    { t with cursorVisible := visible }.markDirty t.cursorY
  else t

-- ============================== attributes

/-- One parameter that stands for itself. -/
def sgrParam (attrs : CellAttrs) (param : Nat) : CellAttrs :=
  match param with
  | 0 => {}
  | 1 => { attrs with bold := true }
  | 3 => { attrs with italic := true }
  | 4 => { attrs with underline := true }
  | 7 => { attrs with inverse := true }
  | 22 => { attrs with bold := false }
  | 23 => { attrs with italic := false }
  | 24 => { attrs with underline := false }
  | 27 => { attrs with inverse := false }
  | 39 => { attrs with fg := DEFAULT_FG }
  | 49 => { attrs with bg := DEFAULT_BG }
  | param =>
    if 30 ≤ param ∧ param ≤ 37 then
      { attrs with fg := ansiColor (param - 30) false }
    else if 40 ≤ param ∧ param ≤ 47 then
      { attrs with bg := ansiColor (param - 40) false }
    else if 90 ≤ param ∧ param ≤ 97 then
      { attrs with fg := ansiColor (param - 90) true }
    else if 100 ≤ param ∧ param ≤ 107 then
      { attrs with bg := ansiColor (param - 100) true }
    else attrs

/-- The colour behind a 38 or 48, if it is complete, and what is left. -/
def extendedColor : List Nat → Option UInt32 × List Nat
  | 5 :: index :: rest => (some (xterm256Color index), rest)
  | 2 :: r :: g :: b :: rest => (some (rgbColor r g b), rest)
  | 2 :: _ => (none, [])
  | _ :: rest => (none, rest)
  | [] => (none, [])

theorem length_extendedColor (params : List Nat) :
    (extendedColor params).2.length ≤ params.length := by
  unfold extendedColor
  split <;> simp only [List.length_cons, List.length_nil] <;> omega

def sgrParams (attrs : CellAttrs) : List Nat → CellAttrs
  | [] => attrs
  | param :: rest =>
    have := length_extendedColor rest
    if param = 38 then
      sgrParams
        { attrs with fg := (extendedColor rest).1.getD attrs.fg }
        (extendedColor rest).2
    else if param = 48 then
      sgrParams
        { attrs with bg := (extendedColor rest).1.getD attrs.bg }
        (extendedColor rest).2
    else sgrParams (sgrParam attrs param) rest
termination_by params => params.length

def setSgr (t : Terminal) (params : List Nat) : Terminal :=
  { t with attrs := if params.isEmpty then {} else sgrParams t.attrs params }

-- ================================= erasing

def clearScreen (t : Terminal) : Terminal :=
  { t with
    buffer := List.replicate t.rows (blankRow t.cols t.attrs)
    wrappedRows := List.replicate t.rows false
    screenTop := 0
    viewTop := 0
    cursorX := 0
    cursorY := 0
    scrollTop := 0
    scrollBottom := t.rows - 1 }.markAllDirty

/-- The cells of a screen row from one column to another are blanked. -/
def eraseRow (t : Terminal) (row start stop : Nat) : Option Terminal := do
  let t ← t.editRow (t.screenTop + row)
    (fillCells (.blank t.attrs) start stop)
  let t ← t.setWrapped (t.screenTop + row) false
  some (t.markDirty row)

def clearScreenFromCursor (t : Terminal) : Option Terminal :=
  (List.range' t.cursorY (t.rows - t.cursorY)).foldlM
    (fun t row => t.eraseRow row (if row = t.cursorY then t.cursorX else 0) t.cols)
    (t.ensureAbsRow (t.screenTop + (t.rows - 1)))

def clearScreenToCursor (t : Terminal) : Option Terminal :=
  (List.range (min t.cursorY (t.rows - 1) + 1)).foldlM
    (fun t row => t.eraseRow row 0
      ((if row = t.cursorY then min t.cursorX (t.cols - 1) else t.cols - 1) + 1))
    (t.ensureAbsRow (t.screenTop + (t.rows - 1)))

def clearLineFromCursor (t : Terminal) : Option Terminal :=
  (t.ensureAbsRow (t.screenTop + t.cursorY)).eraseRow t.cursorY t.cursorX t.cols

def clearLineToCursor (t : Terminal) : Option Terminal :=
  (t.ensureAbsRow (t.screenTop + t.cursorY)).eraseRow t.cursorY 0
    (min t.cursorX (t.cols - 1) + 1)

def clearLine (t : Terminal) : Option Terminal := do
  let absRow := t.screenTop + t.cursorY
  let t ← (t.ensureAbsRow absRow).blankAbsRow absRow
  some (t.markDirty t.cursorY)

def eraseChars (t : Terminal) (n : Nat) : Option Terminal :=
  (t.ensureAbsRow (t.screenTop + t.cursorY)).eraseRow t.cursorY t.cursorX
    (min (t.cursorX + max n 1) t.cols)

-- ================================= editing

/-- The row of the cursor is edited, if there is something to shift. -/
def editChars (t : Terminal) (shift : Nat) (edit : Row → Option Row) :
    Option Terminal := do
  let absRow := t.screenTop + t.cursorY
  let t := t.ensureAbsRow absRow
  if shift > 0 then
    let t ← t.editRow absRow edit
    let t ← t.setWrapped absRow false
    some (t.markDirty t.cursorY)
  else
    let _ ← t.buffer[absRow]?
    some t

def insertChars (t : Terminal) (n : Nat) : Option Terminal :=
  let shift := min (max n 1) (t.cols - t.cursorX)
  t.editChars shift (shiftRight t.attrs t.cursorX t.cols shift)

def deleteChars (t : Terminal) (n : Nat) : Option Terminal :=
  let shift := min (max n 1) (t.cols - t.cursorX)
  t.editChars shift (shiftLeft t.attrs t.cursorX t.cols shift)

/-- One line is inserted at the cursor, within the margins. -/
def insertLine (t : Terminal) : Option Terminal := do
  let t ← (List.range' t.cursorY (t.scrollBottom - t.cursorY)).reverse.foldlM
    (fun t row => t.copyRow (t.screenTop + row) (t.screenTop + row + 1)) t
  t.blankAbsRow (t.screenTop + t.cursorY)

/-- One line is deleted at the cursor, within the margins. -/
def deleteLine (t : Terminal) : Option Terminal := do
  let t ← (List.range' t.cursorY (t.scrollBottom - t.cursorY)).foldlM
    (fun t row => t.copyRow (t.screenTop + row + 1) (t.screenTop + row)) t
  t.blankAbsRow (t.screenTop + t.scrollBottom)

/-- Lines are inserted or deleted one by one, if the cursor is within the
margins. -/
def editLines (t : Terminal) (n : Nat) (edit : Terminal → Option Terminal) :
    Option Terminal :=
  if t.cursorY < t.scrollTop || t.cursorY > t.scrollBottom then some t
  else do
    let t ← (List.range (min (max n 1)
        (t.scrollBottom - t.cursorY + 1))).foldlM (fun t _ => edit t)
      (t.ensureAbsRow (t.screenTop + t.scrollBottom))
    some t.markAllDirty

def insertLines (t : Terminal) (n : Nat) : Option Terminal :=
  t.editLines n insertLine

def deleteLines (t : Terminal) (n : Nat) : Option Terminal :=
  t.editLines n deleteLine

-- ======================== alternate screen

def enterAltScreen (t : Terminal) (clear : Bool) : Terminal :=
  if t.altActive then t
  else
    let t :=
      { t with
        main :=
          { buffer := t.buffer
            wrappedRows := t.wrappedRows
            screenTop := t.screenTop
            viewTop := t.viewTop
            cursorX := t.cursorX
            cursorY := t.cursorY
            attrs := t.attrs }
        buffer := List.replicate t.rows (blankRow t.cols t.attrs)
        wrappedRows := List.replicate t.rows false
        screenTop := 0
        viewTop := 0
        cursorX := 0
        cursorY := 0
        scrollTop := 0
        scrollBottom := t.rows - 1
        dirtyRows := List.range t.rows
        altActive := true }
    if clear then t.clearScreen else t

/-- Flags are dropped or added until there are so many. -/
def resizeFlags (flags : List Bool) (length : Nat) : List Bool :=
  flags.take length ++ List.replicate (length - flags.length) false

/-- The saved main screen is put back. -/
def restoreMain (t : Terminal) : Terminal :=
  { t with
    buffer := t.main.buffer
    wrappedRows := t.main.wrappedRows
    screenTop := t.main.screenTop
    viewTop := t.main.viewTop
    cursorX := t.main.cursorX
    cursorY := t.main.cursorY
    attrs := t.main.attrs
    main := { t.main with
      buffer := []
      wrappedRows := [] }
    scrollTop := 0
    scrollBottom := t.rows - 1
    altActive := false }

/-- The buffer gets enough rows, each as wide as the screen, and the cursor
and the tops are brought within it. -/
def fitScreen (t : Terminal) : Terminal :=
  let t := t.ensureAbsRow (t.screenTop + (t.rows - 1))
  let screenTop := min t.screenTop (t.buffer.length - t.rows)
  { t with
    buffer := t.buffer.map fun row => resizeRow row t.cols t.attrs
    wrappedRows := resizeFlags t.wrappedRows t.buffer.length
    cursorX := min t.cursorX (t.cols - 1)
    cursorY := min t.cursorY (t.rows - 1)
    screenTop
    viewTop := min t.viewTop screenTop }.markAllDirty

/-- Whether the alternate screen is cleared before it is dropped is seen by
nobody. -/
def leaveAltScreen (t : Terminal) : Terminal :=
  if !t.altActive then t else t.restoreMain.fitScreen

def resetTerminal (t : Terminal) : Terminal :=
  let t := t.leaveAltScreen
  { t with
    attrs := {}
    cursorVisible := true
    autoWrap := true
    bracketedPaste := false
    mouseTracking := 0
    sgrMouse := false
    applicationCursorKeys := false
    applicationKeypad := false
    tabStops := defaultTabStops t.cols
    savedCursor := none }.clearScreen

-- ==================================== view

def scrollView (t : Terminal) (deltaLines : Int) : Terminal :=
  if deltaLines = 0 then t
  else
    let next :=
      if deltaLines > 0 then t.viewTop + deltaLines.toNat
      else t.viewTop - deltaLines.natAbs
    let clamped := min next t.screenTop
    if clamped ≠ t.viewTop then { t with viewTop := clamped }.markAllDirty
    else t

def scrollToBottom (t : Terminal) : Terminal :=
  if t.viewTop ≠ t.screenTop then
    { t with viewTop := t.screenTop }.markAllDirty
  else t

/-- The cells that a snapshot has of a row of the buffer, or of one behind
its end. -/
def shownRow (t : Terminal) (absRow : Nat) : List SnapshotCell :=
  match t.buffer[absRow]? with
  | some source => (source.take t.cols).map Cell.shown
  | none => List.replicate t.cols (.blank t.attrs)

def viewRow (t : Terminal) (row : Nat) : List SnapshotCell :=
  t.shownRow (t.viewTop + row)

def makeSnapshot (t : Terminal) : TerminalSnapshot where
  cols := t.cols
  rows := t.rows
  cursorX := min t.cursorX (t.cols - 1)
  cursorY := min t.cursorY (t.rows - 1)
  cursorVisible := t.cursorVisible
  bracketedPaste := t.bracketedPaste
  mouseTracking := t.mouseTracking
  sgrMouse := t.sgrMouse
  applicationCursorKeys := t.applicationCursorKeys
  applicationKeypad := t.applicationKeypad
  autoWrap := t.autoWrap
  viewTop := t.viewTop
  screenTop := t.screenTop
  isAtBottom := t.isAtBottom
  dirtyRows := t.dirtyRows
  cells := (List.range t.rows).flatMap t.viewRow

def snapshot (t : Terminal) : TerminalSnapshot := t.makeSnapshot

def dirtySnapshot (t : Terminal) : Terminal × TerminalSnapshot :=
  ({ t with dirtyRows := [] }, t.makeSnapshot)

-- ================================ resizing

/-- The main screen while the alternate one is resized. -/
def resizeMain (m : MainScreen) (cols rows oldRows : Nat) (attrs : CellAttrs) :
    MainScreen :=
  let buffer := m.buffer.map fun row => resizeRow row cols attrs
  let wrappedRows := List.replicate buffer.length false
  let absoluteCursor := m.screenTop + m.cursorY
  let screenTop := absoluteCursor - (rows - 1 - (oldRows - 1 - m.cursorY))
  let missing := screenTop + rows - buffer.length
  { m with
    buffer := buffer ++ List.replicate missing (blankRow cols m.attrs)
    wrappedRows := wrappedRows ++ List.replicate missing false
    screenTop
    cursorY := absoluteCursor - screenTop
    viewTop :=
      if m.viewTop ≥ m.screenTop then screenTop else min m.viewTop screenTop }

/-- The grid of the new size, before the cursor is placed. -/
def regrid (t : Terminal) (cols rows : Nat) : Terminal :=
  { t with
    cols
    rows
    tabStops := t.tabStops.take cols
      ++ (defaultTabStops cols).drop t.tabStops.length
    buffer := t.buffer.map fun row => resizeRow row cols t.attrs
    wrappedRows := List.replicate t.buffer.length false
    main :=
      if t.altActive then resizeMain t.main cols rows t.rows t.attrs
      else t.main
    cursorX := min t.cursorX (cols - 1)
    screenTop :=
      if t.altActive then 0
      else t.screenTop + t.cursorY - (rows - 1 - (t.rows - 1 - t.cursorY)) }

def resize (t : Terminal) (cols rows : Nat) : Terminal :=
  let wasAtBottom := t.isAtBottom
  let absoluteCursor := t.screenTop + t.cursorY
  let t := t.regrid (max cols 1) (max rows 1)
  let t := t.ensureAbsRow (t.screenTop + (t.rows - 1))
  let screenTop := min t.screenTop t.maxScreenTop
  { t with
    screenTop
    cursorY := min (absoluteCursor - screenTop) (t.rows - 1)
    viewTop := if wasAtBottom then screenTop else min t.viewTop screenTop
    scrollBottom := t.rows - 1 }.markAllDirty

end Terminal

end RemoteDesk.TerminalCore
