/-
What the performer makes of a byte stream
(rustdesk_ffi/src/terminal_core/parser.rs, and `write` of terminal.rs).

The parser turns bytes into actions (`VtAction`: the callbacks of
`vte::Perform` that the performer has), and the performer turns each action
into calls of the terminal. Its counters only thin out a log.
-/
import RemoteDesk.Lib.Runs
import RemoteDesk.TerminalCore.Screen

namespace RemoteDesk.TerminalCore

open Lib

-- =================================== calls

/-- A call of the terminal. -/
inductive Call where
  | printChar (ch : Char)
  | executeByte (byte : UInt8)
  | reverseIndex
  | tabForward (count : Nat)
  | tabBackward (count : Nat)
  | moveCursor (dx dy : Int)
  | setCursor (x y : Nat)
  | cursorAbsoluteCol (col : Nat)
  | cursorAbsoluteRow (row : Nat)
  | cursorNextLine (n : Nat)
  | cursorPrevLine (n : Nat)
  | saveCursorFull
  | restoreCursorFull
  | saveCursorPos
  | restoreCursorPos
  | setScrollRegion (top bottom : Option Nat)
  | clearScreen
  | clearScreenFromCursor
  | clearScreenToCursor
  | clearLineFromCursor
  | clearLineToCursor
  | clearLine
  | insertChars (n : Nat)
  | deleteChars (n : Nat)
  | eraseChars (n : Nat)
  | insertLines (n : Nat)
  | deleteLines (n : Nat)
  | enterAltScreen (clear : Bool)
  | leaveAltScreen
  | resetTerminal
  | setCursorVisible (visible : Bool)
  | setAutoWrap (enabled : Bool)
  | setBracketedPaste (enabled : Bool)
  | setMouseTracking (mode : Nat)
  | setSgrMouse (enabled : Bool)
  | setApplicationCursorKeys (enabled : Bool)
  | setApplicationKeypad (enabled : Bool)
  | setTabStop
  | clearTabStop (mode : Nat)
  | setSgr (params : List Nat)
deriving DecidableEq, Repr

namespace Terminal

def executeByte (t : Terminal) (byte : UInt8) : Option Terminal :=
  if byte = 0x0A then t.lineFeed
  else if byte = 0x0D then some t.carriageReturn
  else if byte = 0x08 then some t.backspace
  else if byte = 0x09 then some t.tab
  else some t

def run (charWidth : CharWidth) (t : Terminal) : Call → Option Terminal
  | .printChar ch => t.printChar charWidth ch
  | .executeByte byte => t.executeByte byte
  | .reverseIndex => t.reverseIndex
  | .tabForward count => some (t.tabForward count)
  | .tabBackward count => some (t.tabBackward count)
  | .moveCursor dx dy => some (t.moveCursor dx dy)
  | .setCursor x y => some (t.setCursor x y)
  | .cursorAbsoluteCol col => some (t.cursorAbsoluteCol col)
  | .cursorAbsoluteRow row => some (t.cursorAbsoluteRow row)
  | .cursorNextLine n => some (t.cursorNextLine n)
  | .cursorPrevLine n => some (t.cursorPrevLine n)
  | .saveCursorFull => some t.saveCursorFull
  | .restoreCursorFull => some t.restoreCursorFull
  | .saveCursorPos => some t.saveCursorPos
  | .restoreCursorPos => some t.restoreCursorPos
  | .setScrollRegion top bottom => some (t.setScrollRegion top bottom)
  | .clearScreen => some t.clearScreen
  | .clearScreenFromCursor => t.clearScreenFromCursor
  | .clearScreenToCursor => t.clearScreenToCursor
  | .clearLineFromCursor => t.clearLineFromCursor
  | .clearLineToCursor => t.clearLineToCursor
  | .clearLine => t.clearLine
  | .insertChars n => t.insertChars n
  | .deleteChars n => t.deleteChars n
  | .eraseChars n => t.eraseChars n
  | .insertLines n => t.insertLines n
  | .deleteLines n => t.deleteLines n
  | .enterAltScreen clear => some (t.enterAltScreen clear)
  | .leaveAltScreen => some t.leaveAltScreen
  | .resetTerminal => some t.resetTerminal
  | .setCursorVisible visible => some (t.setCursorVisible visible)
  | .setAutoWrap enabled => some { t with autoWrap := enabled }
  | .setBracketedPaste enabled => some { t with bracketedPaste := enabled }
  | .setMouseTracking mode => some { t with mouseTracking := mode }
  | .setSgrMouse enabled => some { t with sgrMouse := enabled }
  | .setApplicationCursorKeys enabled =>
    some { t with applicationCursorKeys := enabled }
  | .setApplicationKeypad enabled =>
    some { t with applicationKeypad := enabled }
  | .setTabStop => some t.setTabStop
  | .clearTabStop mode => some (t.clearTabStop mode)
  | .setSgr params => some (t.setSgr params)

end Terminal

-- =============================== performer

inductive VtAction where
  | print (ch : Char)
  | execute (byte : UInt8)
  | csi (params : List (List Nat)) (intermediates : List UInt8) (action : Char)
  | esc (intermediates : List UInt8) (byte : UInt8)
deriving DecidableEq, Repr

def paramOr (params : List (List Nat)) (index default : Nat) : Nat :=
  let value := (params[index]? >>= (·.head?)).getD default
  if default ≠ 0 && value == 0 then default else value

def collectParams (params : List (List Nat)) : List Nat :=
  let values := params.filterMap (·.head?)
  if values.isEmpty then [0] else values

/-- One mode of a DECSET. -/
def privateSet : Nat → List Call
  | 1 => [.setApplicationCursorKeys true]
  | 7 => [.setAutoWrap true]
  | 25 => [.setCursorVisible true]
  | 47 => [.enterAltScreen false]
  | 66 => [.setApplicationKeypad true]
  | 1000 => [.setMouseTracking 1000]
  | 1002 => [.setMouseTracking 1002]
  | 1003 => [.setMouseTracking 1003]
  | 1006 => [.setSgrMouse true]
  | 1047 => [.enterAltScreen true]
  | 1048 => [.saveCursorFull]
  | 1049 => [.enterAltScreen true]
  | 2004 => [.setBracketedPaste true]
  | _ => []

/-- One mode of a DECRST. Whether the alternate screen is cleared when it is
left is seen by nobody. -/
def privateReset : Nat → List Call
  | 1 => [.setApplicationCursorKeys false]
  | 7 => [.setAutoWrap false]
  | 25 => [.setCursorVisible false]
  | 47 => [.leaveAltScreen]
  | 66 => [.setApplicationKeypad false]
  | 1000 => [.setMouseTracking 0]
  | 1002 => [.setMouseTracking 0]
  | 1003 => [.setMouseTracking 0]
  | 1006 => [.setSgrMouse false]
  | 1047 => [.leaveAltScreen]
  | 1048 => [.restoreCursorFull]
  | 1049 => [.leaveAltScreen]
  | 2004 => [.setBracketedPaste false]
  | _ => []

def csiDispatch (params : List (List Nat)) (intermediates : List UInt8)
    (action : Char) : List Call :=
  -- `?` marks a private sequence
  let isPrivate := intermediates == [0x3F]
  let n := paramOr params 0 1
  match action with
  | 'A' => [.moveCursor 0 (-n)]
  | 'B' => [.moveCursor 0 n]
  | 'C' => [.moveCursor n 0]
  | 'D' => [.moveCursor (-n) 0]
  | 'E' => [.cursorNextLine n]
  | 'F' => [.cursorPrevLine n]
  | 'G' => [.cursorAbsoluteCol n]
  | 'H' => [.setCursor (paramOr params 1 1 - 1) (n - 1)]
  | 'f' => [.setCursor (paramOr params 1 1 - 1) (n - 1)]
  | 'J' =>
    if isPrivate then []
    else
      match paramOr params 0 0 with
      | 0 => [.clearScreenFromCursor]
      | 1 => [.clearScreenToCursor]
      | 2 => [.clearScreen]
      | 3 => [.clearScreen]
      | _ => []
  | 'K' =>
    if isPrivate then []
    else
      match paramOr params 0 0 with
      | 0 => [.clearLineFromCursor]
      | 1 => [.clearLineToCursor]
      | 2 => [.clearLine]
      | _ => []
  | 'L' => [.insertLines n]
  | 'M' => [.deleteLines n]
  | 'P' => [.deleteChars n]
  | 'X' => [.eraseChars n]
  | '@' => [.insertChars n]
  | 'd' => [.cursorAbsoluteRow n]
  | 'g' => [.clearTabStop (paramOr params 0 0)]
  | 'I' => [.tabForward n]
  | 'Z' => [.tabBackward n]
  | 'h' => if isPrivate then (collectParams params).flatMap privateSet else []
  | 'l' => if isPrivate then (collectParams params).flatMap privateReset else []
  | 'm' => [.setSgr (collectParams params)]
  | 'r' =>
    if isPrivate then []
    else
      [.setScrollRegion (params[0]? >>= (·.head?)) (params[1]? >>= (·.head?))]
  | 's' => if isPrivate then [] else [.saveCursorPos]
  | 'u' => if isPrivate then [] else [.restoreCursorPos]
  | _ => []

def escDispatch (intermediates : List UInt8) (byte : UInt8) : List Call :=
  if !intermediates.isEmpty then []
  else if byte = 0x63 then [.resetTerminal]
  else if byte = 0x37 then [.saveCursorFull]
  else if byte = 0x38 then [.restoreCursorFull]
  else if byte = 0x4D then [.reverseIndex]
  else if byte = 0x3E then [.setApplicationKeypad false]
  else if byte = 0x3D then [.setApplicationKeypad true]
  else if byte = 0x48 then [.setTabStop]
  else []

/-- The calls that an action makes. -/
def perform : VtAction → List Call
  | .print ch => [.printChar ch]
  | .execute byte => [.executeByte byte]
  | .csi params intermediates action => csiDispatch params intermediates action
  | .esc intermediates byte => escDispatch intermediates byte

-- ============================== operations

namespace Terminal

/-- The end of a write: the view follows if it was at the bottom before. -/
def settle (wasAtBottom : Bool) (t : Terminal) : Terminal :=
  if wasAtBottom then t.scrollToBottom else t

def write (charWidth : CharWidth) (t : Terminal) (actions : List VtAction) :
    Option Terminal := do
  let t' ← execM (run charWidth) t (actions.flatMap perform)
  some (t'.settle t.isAtBottom)

end Terminal

/-- What is done with a terminal from outside. -/
inductive TerminalOp where
  | write (actions : List VtAction)
  | resize (cols rows : Nat)
  | scrollView (deltaLines : Int)
  | scrollToBottom
  | snapshot
  | dirtySnapshot
deriving DecidableEq, Repr

def Terminal.op (charWidth : CharWidth) (t : Terminal) :
    TerminalOp → Option Terminal
  | .write actions => t.write charWidth actions
  | .resize cols rows => some (t.resize cols rows)
  | .scrollView deltaLines => some (t.scrollView deltaLines)
  | .scrollToBottom => some t.scrollToBottom
  | .snapshot => some t
  | .dirtySnapshot => some t.dirtySnapshot.1

end RemoteDesk.TerminalCore
