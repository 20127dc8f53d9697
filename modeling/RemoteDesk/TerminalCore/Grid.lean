/-
Cells, rows and colours of the terminal
(rustdesk_ffi/src/terminal_core/cell.rs, grid.rs, snapshot.rs).

A write to a cell is an index into its row, and `none` is the panic of an
index that is out of bounds.
-/
import Mathlib

namespace RemoteDesk.TerminalCore

-- =================================== cells

def DEFAULT_FG : UInt32 := 0xFFE8EAED
def DEFAULT_BG : UInt32 := 0xFF0B0F14

structure CellAttrs where
  fg : UInt32 := DEFAULT_FG
  bg : UInt32 := DEFAULT_BG
  bold : Bool := false
  italic : Bool := false
  underline : Bool := false
  inverse : Bool := false
deriving DecidableEq, Repr

structure Cell where
  ch : Char
  attrs : CellAttrs
  wide : Bool := false
  wideContinuation : Bool := false
deriving DecidableEq, Repr

def Cell.blank (attrs : CellAttrs) : Cell where
  ch := ' '
  attrs

structure SnapshotCell where
  ch : Char
  fg : UInt32
  bg : UInt32
  bold : Bool
  italic : Bool
  underline : Bool
  inverse : Bool
  wide : Bool
  wideContinuation : Bool
deriving DecidableEq, Repr

def SnapshotCell.blank (attrs : CellAttrs) : SnapshotCell where
  ch := ' '
  fg := attrs.fg
  bg := attrs.bg
  bold := attrs.bold
  italic := attrs.italic
  underline := attrs.underline
  inverse := attrs.inverse
  wide := false
  wideContinuation := false

/-- A cell as a snapshot shows it. -/
def Cell.shown (cell : Cell) : SnapshotCell where
  ch := cell.ch
  fg := cell.attrs.fg
  bg := cell.attrs.bg
  bold := cell.attrs.bold
  italic := cell.attrs.italic
  underline := cell.attrs.underline
  inverse := cell.attrs.inverse
  wide := cell.wide
  wideContinuation := cell.wideContinuation

@[simp] theorem shown_blank (attrs : CellAttrs) :
    (Cell.blank attrs).shown = SnapshotCell.blank attrs := rfl

-- ================================= colours

def normalColors : List UInt32 :=
  [0xFF1F2328, 0xFFFF5F57, 0xFF5AF78E, 0xFFF3F99D, 0xFF57C7FF, 0xFFFF6AC1,
    0xFF9AEDFE, 0xFFE8EAED]

def brightColors : List UInt32 :=
  [0xFF6E7681, 0xFFFF7B72, 0xFF7EE787, 0xFFFFD866, 0xFF79C0FF, 0xFFD2A8FF,
    0xFFA5F3FC, 0xFFFFFFFF]

def ansiColor (index : Nat) (bright : Bool) : UInt32 :=
  (if bright then brightColors else normalColors).getD (min index 7) 0

/-- A colour of three channels, each a `u16` that is shifted into its place. -/
def rgbColor (r g b : Nat) : UInt32 :=
  (0xFF000000 : UInt32) ||| (UInt32.ofNat r <<< 16) ||| (UInt32.ofNat g <<< 8)
    ||| UInt32.ofNat b

def xterm256Color (index : Nat) : UInt32 :=
  if index ≤ 15 then
    (if index ≥ 8 then brightColors else normalColors).getD (index % 8) 0
  else if index ≤ 231 then
    rgbColor ((index - 16) / 36 * 51) ((index - 16) / 6 % 6 * 51)
      ((index - 16) % 6 * 51)
  else if index ≤ 255 then
    rgbColor ((index - 232) * 10 + 8) ((index - 232) * 10 + 8)
      ((index - 232) * 10 + 8)
  else DEFAULT_FG

-- ==================================== rows

abbrev Row := List Cell

def blankRow (cols : Nat) (attrs : CellAttrs) : Row :=
  List.replicate cols (.blank attrs)

def resizeRow (row : Row) (cols : Nat) (attrs : CellAttrs) : Row :=
  if row.length < cols then
    row ++ List.replicate (cols - row.length) (.blank attrs)
  else row.take cols

/-- `row[col] = cell` -/
def setCell (cell : Cell) (row : Row) (col : Nat) : Option Row :=
  if col < row.length then some (row.set col cell) else none

/-- `row[target] = row[source].clone()` -/
def copyCell (row : Row) (source target : Nat) : Option Row := do
  setCell (← row[source]?) row target

/-- `for col in start..stop { row[col] = cell }` -/
def fillCells (cell : Cell) (start stop : Nat) (row : Row) : Option Row :=
  (List.range' start (stop - start)).foldlM (setCell cell) row

/-- A row whose cells from a column on move right by some, and blanks come in. -/
def shiftRight (attrs : CellAttrs) (cursorX cols shift : Nat) (row : Row) :
    Option Row := do
  let row ← (List.range' cursorX (cols - shift - cursorX)).reverse.foldlM
    (fun row i => copyCell row i (i + shift)) row
  fillCells (.blank attrs) cursorX (cursorX + shift) row

/-- A row whose cells behind a column move left by some, and blanks come in. -/
def shiftLeft (attrs : CellAttrs) (cursorX cols shift : Nat) (row : Row) :
    Option Row := do
  let row ← (List.range' cursorX (cols - shift - cursorX)).foldlM
    (fun row i => copyCell row (i + shift) i) row
  fillCells (.blank attrs) (cols - shift) cols row

@[simp] theorem length_blankRow (cols : Nat) (attrs : CellAttrs) :
    (blankRow cols attrs).length = cols :=
  List.length_replicate

@[simp] theorem length_resizeRow (row : Row) (cols : Nat) (attrs : CellAttrs) :
    (resizeRow row cols attrs).length = cols := by
  unfold resizeRow
  split
  · rw [List.length_append, List.length_replicate]
    omega
  · rw [List.length_take]
    omega

variable {row : Row}

theorem resizeRow_self {cols : Nat} (h : row.length = cols)
    (attrs : CellAttrs) : resizeRow row cols attrs = row := by
  unfold resizeRow
  rw [if_neg (by omega), List.take_of_length_le (by omega)]

/-- A loop of steps that never fail and keep a property. -/
theorem foldlM_some {σ α : Type*} {f : σ → α → Option σ} {P : σ → Prop}
    {l : List α}
    (hstep : ∀ a ∈ l, ∀ s, P s → ∃ s', f s a = some s' ∧ P s') {s : σ}
    (hs : P s) : ∃ s', l.foldlM f s = some s' ∧ P s' := by
  induction l generalizing s with
  | nil => exact ⟨s, rfl, hs⟩
  | cons a l ih =>
    obtain ⟨s₁, hs₁, hP₁⟩ := hstep a List.mem_cons_self s hs
    obtain ⟨s₂, hs₂, hP₂⟩ := ih
      (fun a' ha' => hstep a' (List.mem_cons_of_mem _ ha')) hP₁
    refine ⟨s₂, ?_, hP₂⟩
    rw [List.foldlM_cons, hs₁]
    exact hs₂

theorem setCell_some (cell : Cell) {col : Nat} (h : col < row.length) :
    ∃ row', setCell cell row col = some row' ∧ row'.length = row.length :=
  ⟨row.set col cell, if_pos h, List.length_set⟩

theorem copyCell_some {source target : Nat} (hsource : source < row.length)
    (htarget : target < row.length) :
    ∃ row', copyCell row source target = some row'
      ∧ row'.length = row.length := by
  rw [copyCell, List.getElem?_eq_getElem hsource]
  exact setCell_some _ htarget

theorem fillCells_some (cell : Cell) (start : Nat) {stop : Nat}
    (h : stop ≤ row.length) :
    ∃ row', fillCells cell start stop row = some row'
      ∧ row'.length = row.length := by
  apply foldlM_some (P := fun row' : Row => row'.length = row.length) _ rfl
  intro col hcol row' hrow'
  obtain ⟨hstart, hstop⟩ := List.mem_range'_1.1 hcol
  obtain ⟨row'', hset, hlength⟩ := setCell_some cell
    (show col < row'.length by omega)
  exact ⟨row'', hset, hlength.trans hrow'⟩

/-- A loop over no columns writes nothing. -/
theorem fillCells_empty {cell : Cell} {start stop : Nat} (row : Row)
    (h : stop ≤ start) : fillCells cell start stop row = some row := by
  rw [fillCells, Nat.sub_eq_zero_of_le h]
  rfl

theorem shiftRight_some (attrs : CellAttrs) {cursorX cols shift : Nat}
    (hshift : cursorX + shift ≤ cols) (row : Row) (hrow : row.length = cols) :
    ∃ row', shiftRight attrs cursorX cols shift row = some row'
      ∧ row'.length = cols := by
  obtain ⟨s, hs, hlength⟩ := foldlM_some (f := fun row i => copyCell row i (i + shift))
    (P := fun s : Row => s.length = cols)
    (l := (List.range' cursorX (cols - shift - cursorX)).reverse) (by
      intro i hi s hs
      have hmem := List.mem_range'_1.1 (List.mem_reverse.1 hi)
      obtain ⟨s', hs', hsame⟩ := copyCell_some
        (show i < s.length by omega) (show i + shift < s.length by omega)
      exact ⟨s', hs', hsame.trans hs⟩) hrow
  obtain ⟨s', hs', hlength'⟩ := fillCells_some (.blank attrs) cursorX
    (show cursorX + shift ≤ s.length by omega)
  refine ⟨s', ?_, hlength'.trans hlength⟩
  rw [shiftRight, hs]
  exact hs'

theorem shiftLeft_some (attrs : CellAttrs) {cursorX cols shift : Nat}
    (row : Row) (hrow : row.length = cols) :
    ∃ row', shiftLeft attrs cursorX cols shift row = some row'
      ∧ row'.length = cols := by
  obtain ⟨s, hs, hlength⟩ := foldlM_some (f := fun row i => copyCell row (i + shift) i)
    (P := fun s : Row => s.length = cols)
    (l := List.range' cursorX (cols - shift - cursorX)) (by
      intro i hi s hs
      have hmem := List.mem_range'_1.1 hi
      obtain ⟨s', hs', hsame⟩ := copyCell_some
        (show i + shift < s.length by omega) (show i < s.length by omega)
      exact ⟨s', hs', hsame.trans hs⟩) hrow
  obtain ⟨s', hs', hlength'⟩ := fillCells_some (.blank attrs) (cols - shift)
    (show cols ≤ s.length by omega)
  refine ⟨s', ?_, hlength'.trans hlength⟩
  rw [shiftLeft, hs]
  exact hs'

end RemoteDesk.TerminalCore
