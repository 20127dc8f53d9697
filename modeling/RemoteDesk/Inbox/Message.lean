/-
The control messages of a RustDesk session (`ControlMsg`, lib.rs) and
the permission each of them needs (`required_permission`,
control_inbox.rs).

# Field types

`i32` fields are `Int`; the two places the inbox does arithmetic on
them (`saturating_add`, `combine_scale_delta`) clamp explicitly, so an
`i32` goes in and an `i32` comes out. `u32`/`u64` fields the inbox only
hands on are `Nat`. A `PublicationToken` is carried by its publication
id: the inbox never looks inside it. Permission masks are `BitVec 32`,
which is what the atomics hold.
-/
import RemoteDesk.Lib.Runs

namespace RemoteDesk.Inbox

-- ================================ messages

/-- One control request of the UI to the session thread. -/
inductive ControlMsg
  | shutdown
  | androidPhone (action : Int) (modernBack : Bool)
  | refreshVideo
  | videoPressure (level : Nat)
  | setImageQuality (quality : Int) (generation : Nat)
  | setStreamOptions (codec : Int) (audioEnabled : Bool)
  | togglePrivacyMode (implKey : String) (on : Bool)
  | toggleVirtualDisplay (display : Int) (on : Bool)
  | keyEvent (scancode : Nat) (pressed : Bool)
  | mouseEvent (x y : Int) (button : Nat) (pressed : Bool)
  | mouseMove (x y : Int)
  | mouseWheel (x y delta : Int)
  | mouseWheel2D (x y : Int)
  | text (text : String)
  | sendFile (remotePath : String) (data : List UInt8)
  | clipboard (content : List UInt8)
  | clipboardTracked (content : List UInt8) (receipt : Nat)
  | changeDisplayResolution (display width height : Int)
  | switchDisplay (display : Int)
  | displaySwitch (display : Int) (generation : Nat)
  | captureDisplays (add sub set : List Int)
  | refreshVideoDisplay (display : Int)
  | touchScale (scale : Int)
  | touchPanStart (x y : Int)
  | touchPanUpdate (x y : Int)
  | touchPanEnd (x y : Int)
  deriving DecidableEq, Repr

-- ============================= permissions

/-- A permission mask, as the two atomics of the inbox hold it. -/
abbrev Permission := BitVec 32

def permissionKeyboard : Permission := 1#32 <<< 0
def permissionClipboard : Permission := 1#32 <<< 2
def permissionFile : Permission := 1#32 <<< 4

/-- The permission the remote peer must not have denied for a message
to be accepted (`required_permission`). -/
def requiredPermission : ControlMsg → Option Permission
  | .androidPhone .. | .keyEvent .. | .mouseEvent .. | .mouseMove ..
  | .mouseWheel .. | .mouseWheel2D .. | .text .. | .touchScale ..
  | .touchPanStart .. | .touchPanUpdate .. | .touchPanEnd .. =>
    some permissionKeyboard
  | .clipboard .. | .clipboardTracked .. => some permissionClipboard
  | .sendFile .. => some permissionFile
  | _ => none

-- ========================= message classes

namespace ControlMsg

/-- A mouse button press or release. -/
def isButton : ControlMsg → Bool
  | mouseEvent .. => true
  | _ => false

def isMove : ControlMsg → Bool
  | mouseMove .. => true
  | _ => false

def isSwitch : ControlMsg → Bool
  | displaySwitch .. => true
  | _ => false

/-- The messages whose coordinates or deltas belong to the display the
pointer is on: mouse and touch input. -/
def isPointer : ControlMsg → Bool
  | mouseEvent .. | mouseMove .. | mouseWheel .. | mouseWheel2D ..
  | touchScale .. | touchPanStart .. | touchPanUpdate ..
  | touchPanEnd .. => true
  | _ => false

/-- The queued pointer deltas a display switch discards
(`discard_stale_pointer_updates`' `retain` predicate, negated). -/
def isStaleUpdate : ControlMsg → Bool
  | touchScale scale => decide (0 < scale)
  | touchPanUpdate .. | mouseWheel2D .. => true
  | _ => false

/-- The messages `enqueue` appends to the reliable deque under their own
name. The rest live in a coalescing slot or are flags. -/
def isReliable : ControlMsg → Bool
  | shutdown | refreshVideo | videoPressure .. | mouseMove ..
  | mouseWheel2D .. | displaySwitch .. | touchPanUpdate .. => false
  | touchScale scale => decide (scale ≤ 0)
  | _ => true

/-- The touch deltas, which share one coalescing slot. -/
def isTouchUpdate : ControlMsg → Bool
  | touchScale scale => decide (0 < scale)
  | touchPanUpdate .. => true
  | _ => false

def isWheel2D : ControlMsg → Bool
  | mouseWheel2D .. => true
  | _ => false

variable {m : ControlMsg}

theorem isPointer_of_isButton (h : m.isButton = true) : m.isPointer = true := by
  cases m <;> first | rfl | cases h

/-- A message without the deltas that folding changes: what a merged
entry and the messages folded into it have in common. -/
def shape : ControlMsg → ControlMsg
  | touchScale _ => touchScale 0
  | touchPanUpdate .. => touchPanUpdate 0 0
  | mouseWheel2D .. => mouseWheel2D 0 0
  | m => m

/-- A movement is none of the other classes. -/
theorem isMove_eq_false (h : m.isButton = true ∨ m.isReliable = true
      ∨ m.isTouchUpdate = true ∨ m.isWheel2D = true) : m.isMove = false := by
  cases m <;> first | rfl | simp [isButton, isReliable, isTouchUpdate,
    isWheel2D] at h

theorem isButton_eq_false
    (h : m.isMove = true ∨ m.isSwitch = true) : m.isButton = false := by
  cases m <;> first | rfl | simp [isMove, isSwitch] at h

theorem isSwitch_eq_false
    (h : m.isMove = true ∨ m.isPointer = true ∨ m.isReliable = true
      ∨ m.isTouchUpdate = true ∨ m.isWheel2D = true) : m.isSwitch = false := by
  cases m <;> first | rfl | simp [isMove, isPointer, isReliable,
    isTouchUpdate, isWheel2D] at h

end ControlMsg

end RemoteDesk.Inbox
