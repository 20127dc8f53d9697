/-
A visit to the alternate screen
(rustdesk_ffi/src/terminal_core/terminal.rs).

# A visit

A visit begins with the call that enters the alternate screen, within a write,
and ends with the call that leaves it, in the same write or in a later one.
Between them are any calls but those that leave. It is judged at the end of
the write that leaves.

# What goes wrong

A cursor that waits behind the last column comes back in it. A view that was
parked above the screen is not parked behind a later write: that write begins
at the bottom of the alternate screen, and so ends at the bottom of the main
one.
-/
import RemoteDesk.TerminalCore.Safety

namespace RemoteDesk.TerminalCore

open Lib

variable {charWidth : CharWidth} {t s : Terminal}

-- ================================== visits

/-- What is done between entering and leaving: the rest of the write that
enters and, unless the same write leaves, whole writes and the beginning of
the one that leaves. -/
structure Visit where
  clear : Bool
  first : List Call
  later : Option (List (List Call) × List Call) := none
deriving DecidableEq, Repr

/-- A call that leaves the alternate screen. -/
def Leaves (call : Call) : Prop :=
  call = .leaveAltScreen ∨ call = .resetTerminal

/-- No call of a visit leaves. -/
structure Visit.Stays (visit : Visit) : Prop where
  first : ∀ call ∈ visit.first, ¬ Leaves call
  writes : ∀ writes last, visit.later = some (writes, last) →
    (∀ write ∈ writes, ∀ call ∈ write, ¬ Leaves call)
      ∧ ∀ call ∈ last, ¬ Leaves call

namespace Terminal

/-- A write whose calls are these. -/
def writeCalls (charWidth : CharWidth) (t : Terminal) (calls : List Call) :
    Option Terminal := do
  let t' ← execM (run charWidth) t calls
  some (t'.settle t.isAtBottom)

/-- The terminal before the call that leaves, and whether the write that
leaves began at the bottom. -/
def visit (charWidth : CharWidth) (wasAtBottom : Bool) (t : Terminal)
    (visit : Visit) : Option (Terminal × Bool) := do
  let s ← execM (run charWidth) (t.enterAltScreen visit.clear) visit.first
  match visit.later with
  | none => some (s, wasAtBottom)
  | some (writes, last) => do
      let s ← execM (writeCalls charWidth) (s.settle wasAtBottom) writes
      let s' ← execM (run charWidth) s last
      some (s', s.isAtBottom)

/-- The main screen as it is saved. -/
def saved (t : Terminal) : MainScreen where
  buffer := t.buffer
  wrappedRows := t.wrappedRows
  screenTop := t.screenTop
  viewTop := t.viewTop
  cursorX := t.cursorX
  cursorY := t.cursorY
  attrs := t.attrs

end Terminal

/-- Everything that leaving has to bring back. -/
structure Restored (t t' : Terminal) : Prop where
  buffer : t'.buffer = t.buffer
  wrappedRows : t'.wrappedRows = t.wrappedRows
  cursorX : t'.cursorX = t.cursorX
  cursorY : t'.cursorY = t.cursorY
  attrs : t'.attrs = t.attrs
  screenTop : t'.screenTop = t.screenTop
  viewTop : t'.viewTop = t.viewTop

-- ================================= staying

/-- A terminal on the alternate screen that was entered from another. -/
structure Staying (t s : Terminal) : Prop where
  shape : Shape s
  ordered : Ordered s
  alt : s.altActive = true
  main : s.main = t.saved
  cols : s.cols = t.cols
  rows : s.rows = t.rows
  top : s.screenTop = 0

variable {s' : Terminal}

theorem Staying.follows (h : Staying t s) {scrolls seen : Prop}
    (hfollows : Follows scrolls seen s s') : Staying t s' where
  shape := hfollows.shape
  ordered := hfollows.ordered h.ordered
  alt := hfollows.alt.trans h.alt
  main := hfollows.main.trans h.main
  cols := hfollows.cols.trans h.cols
  rows := hfollows.rows.trans h.rows
  top := hfollows.top h.alt h.top

theorem Staying.run (h : Staying t s) {call : Call} (hcall : ¬ Leaves call) :
    ∃ s', s.run charWidth call = some s' ∧ Staying t s' := by
  have hstays : ¬ Switches s call := by
    intro hswitches
    cases call with
    | enterAltScreen clear =>
      have hinactive : s.altActive = false := hswitches
      exact Bool.noConfusion (h.alt.symm.trans hinactive)
    | leaveAltScreen => exact hcall (.inl rfl)
    | resetTerminal => exact hcall (.inr rfl)
    | _ => exact hswitches
  rcases run_cases charWidth h.shape call with
    ⟨s', hs', -, hfollows⟩ | ⟨-, hunordered⟩
  · exact ⟨s', hs', h.follows (hfollows hstays)⟩
  · exact absurd h.ordered hunordered

theorem Staying.calls (charWidth : CharWidth) (h : Staying t s)
    {calls : List Call} (hcalls : ∀ call ∈ calls, ¬ Leaves call) :
    ∃ s', execM (Terminal.run charWidth) s calls = some s' ∧ Staying t s' := by
  induction calls generalizing s with
  | nil => exact ⟨s, rfl, h⟩
  | cons call calls ih =>
    obtain ⟨s₁, hs₁, hstaying⟩ := h.run (hcalls call List.mem_cons_self)
    obtain ⟨s₂, hs₂, hstaying'⟩ := ih hstaying
      fun call' hcall' => hcalls call' (List.mem_cons_of_mem _ hcall')
    refine ⟨s₂, ?_, hstaying'⟩
    rw [execM_cons, hs₁]
    exact hs₂

theorem Staying.settle (h : Staying t s) (wasAtBottom : Bool) :
    Staying t (s.settle wasAtBottom) :=
  h.follows (settle_follows h.shape wasAtBottom)

theorem Staying.writes (charWidth : CharWidth) (h : Staying t s)
    {writes : List (List Call)}
    (hwrites : ∀ write ∈ writes, ∀ call ∈ write, ¬ Leaves call) :
    ∃ s', execM (Terminal.writeCalls charWidth) s writes = some s'
      ∧ Staying t s' := by
  induction writes generalizing s with
  | nil => exact ⟨s, rfl, h⟩
  | cons write writes ih =>
    obtain ⟨s₁, hs₁, hstaying⟩ :=
      h.calls charWidth (hwrites write List.mem_cons_self)
    obtain ⟨s₂, hs₂, hstaying'⟩ := ih (hstaying.settle s.isAtBottom)
      fun write' hwrite' => hwrites write' (List.mem_cons_of_mem _ hwrite')
    refine ⟨s₂, ?_, hstaying'⟩
    rw [execM_cons, Terminal.writeCalls, hs₁]
    exact hs₂

/-- The alternate screen has no scrollback, so its view is at the bottom. -/
theorem Staying.isAtBottom (h : Staying t s) : s.isAtBottom = true := by
  unfold Terminal.isAtBottom
  rw [h.top]
  exact decide_eq_true (Nat.zero_le _)

theorem enter_staying (h : Shape t) (halt : t.altActive = false) (clear : Bool) :
    Staying t (t.enterAltScreen clear) := by
  have hkeeps := enterAltScreen_keeps h clear
  have hinactive : ¬ t.altActive = true := by
    rw [halt]
    exact Bool.false_ne_true
  refine ⟨hkeeps.shape, ?_, ?_, ?_, hkeeps.cols, hkeeps.rows, ?_⟩ <;>
    rw [Terminal.enterAltScreen, if_neg hinactive] <;>
    cases clear
  · exact Nat.zero_le _
  · exact Nat.zero_le _
  all_goals rfl

/-- A visit does not fail, and leaves the saved screen alone. -/
theorem visit_some (h : Shape t) (halt : t.altActive = false)
    (wasAtBottom : Bool) {visit : Visit} (hstays : visit.Stays) :
    ∃ s, t.visit charWidth wasAtBottom visit
        = some (s, wasAtBottom || visit.later.isSome)
      ∧ Staying t s := by
  obtain ⟨s₁, hs₁, hfirst⟩ :=
    (enter_staying h halt visit.clear).calls charWidth hstays.first
  rw [Terminal.visit, hs₁]
  rcases hlater : visit.later with _ | ⟨writes, last⟩
  · refine ⟨s₁, ?_, hfirst⟩
    rw [Option.isSome_none, Bool.or_false]
    rfl
  · obtain ⟨hwrites, hlast⟩ := hstays.writes writes last hlater
    obtain ⟨s₂, hs₂, hbetween⟩ :=
      (hfirst.settle wasAtBottom).writes charWidth hwrites
    obtain ⟨s₃, hs₃, hended⟩ := hbetween.calls charWidth hlast
    refine ⟨s₃, ?_, hended⟩
    rw [Option.isSome_some, Bool.or_true, ← hbetween.isAtBottom]
    show (execM _ (s₁.settle wasAtBottom) writes >>= _) = _
    rw [hs₂]
    show (execM _ s₂ last >>= _) = _
    rw [hs₃]
    rfl

-- ================================= leaving

theorem resizeFlags_self (flags : List Bool) :
    Terminal.resizeFlags flags flags.length = flags := by
  rw [Terminal.resizeFlags, List.take_length, Nat.sub_self,
    List.replicate_zero, List.append_nil]

theorem ensureAbsRow_self {absRow : Nat} (h : absRow < t.buffer.length) :
    t.ensureAbsRow absRow = t := by
  have hnone : absRow + 1 - t.buffer.length = 0 := by omega
  rw [Terminal.ensureAbsRow, hnone, List.replicate_zero, List.replicate_zero,
    List.append_nil, List.append_nil]

/-- A screen that is whole fits as it is, but for the cursor. -/
theorem fitScreen_filled (h : Filled t) (hrows : 0 < t.rows)
    (hflags : t.wrappedRows.length = t.buffer.length)
    (hwidth : ∀ row ∈ t.buffer, row.length = t.cols)
    (hview : t.viewTop ≤ t.screenTop) :
    t.fitScreen = { t with
      cursorX := min t.cursorX (t.cols - 1)
      cursorY := min t.cursorY (t.rows - 1) }.markAllDirty := by
  have hfilled : t.screenTop + t.rows ≤ t.buffer.length := h
  have hgrown : t.ensureAbsRow (t.screenTop + (t.rows - 1)) = t :=
    ensureAbsRow_self (by omega)
  have htop : min t.screenTop (t.buffer.length - t.rows) = t.screenTop := by
    omega
  have hrowsSame : t.buffer.map (fun row => resizeRow row t.cols t.attrs)
      = t.buffer := by
    conv_rhs => rw [← List.map_id t.buffer]
    exact List.map_congr_left fun row hrow => resizeRow_self (hwidth row hrow) _
  have hflagsSame : Terminal.resizeFlags t.wrappedRows t.buffer.length
      = t.wrappedRows := by
    rw [← hflags, resizeFlags_self]
  rw [Terminal.fitScreen, hgrown]
  show Terminal.markAllDirty _ = _
  rw [htop, hrowsSame, hflagsSame, Nat.min_eq_left hview]

/-- What leaving brings back of the cursor, and of a screen that was whole. -/
structure Left (t s' : Terminal) : Prop where
  cursorX : s'.cursorX = min t.cursorX (t.cols - 1)
  cursorY : s'.cursorY = t.cursorY
  attrs : s'.attrs = t.attrs
  filled : s'.screenTop + t.rows ≤ s'.buffer.length
  whole : Filled t → s'.buffer = t.buffer ∧ s'.wrappedRows = t.wrappedRows
    ∧ s'.screenTop = t.screenTop ∧ s'.viewTop = t.viewTop

theorem leave_left (h : Shape t) (hs : Staying t s) :
    Left t s.leaveAltScreen := by
  have hactive : ¬ (!s.altActive) = true := by
    rw [hs.alt]
    exact Bool.false_ne_true
  have hcursorY := h.cursorY
  have hbuffer : s.restoreMain.buffer = t.buffer :=
    congrArg MainScreen.buffer hs.main
  have hwrapped : s.restoreMain.wrappedRows = t.wrappedRows :=
    congrArg MainScreen.wrappedRows hs.main
  have htop : s.restoreMain.screenTop = t.screenTop :=
    congrArg MainScreen.screenTop hs.main
  have hview : s.restoreMain.viewTop = t.viewTop :=
    congrArg MainScreen.viewTop hs.main
  have hx : s.restoreMain.cursorX = t.cursorX :=
    congrArg MainScreen.cursorX hs.main
  have hy : s.restoreMain.cursorY = t.cursorY :=
    congrArg MainScreen.cursorY hs.main
  have hattrs : s.restoreMain.attrs = t.attrs :=
    congrArg MainScreen.attrs hs.main
  have hcols : s.restoreMain.cols = t.cols := hs.cols
  have hrows : s.restoreMain.rows = t.rows := hs.rows
  have hmargin : s.restoreMain.scrollBottom < s.restoreMain.rows :=
    Nat.sub_lt hs.shape.rows Nat.one_pos
  rw [Terminal.leaveAltScreen, if_neg hactive]
  generalize s.restoreMain = m at *
  obtain ⟨-, hfilled⟩ := @fitScreen_shape m (hcols ▸ h.cols) (hrows ▸ h.rows)
    hmargin
  refine ⟨?_, ?_, hattrs, ?_, fun hwhole => ?_⟩
  · show min m.cursorX (m.cols - 1) = _
    rw [hx, hcols]
  · show min m.cursorY (m.rows - 1) = _
    rw [hy, hrows]
    omega
  · rw [← hrows]
    exact hfilled
  · have hmfilled : Filled m := by
      show m.screenTop + m.rows ≤ m.buffer.length
      rw [htop, hrows, hbuffer]
      exact hwhole
    rw [fitScreen_filled hmfilled (hrows ▸ h.rows)
      (by rw [hwrapped, hbuffer]; exact h.flags)
      (by rw [hbuffer, hcols]; exact h.width)
      (by rw [hview, htop]; exact h.view)]
    exact ⟨hbuffer, hwrapped, htop, hview⟩

/-- The cursor is in a column, and the buffer holds the screen. -/
def Returns (t : Terminal) : Prop := t.cursorX < t.cols ∧ Filled t

theorem Left.restored (h : Shape t) (hleft : Left t s') :
    Restored t s' ↔ Returns t := by
  constructor
  · intro hrestored
    have hx := hleft.cursorX.symm.trans hrestored.cursorX
    have hcols := h.cols
    refine ⟨by omega, ?_⟩
    show t.screenTop + t.rows ≤ t.buffer.length
    rw [← hrestored.buffer, ← hrestored.screenTop]
    exact hleft.filled
  · rintro ⟨hcolumn, hfilled⟩
    obtain ⟨hbuffer, hwrapped, htop, hview⟩ := hleft.whole hfilled
    refine ⟨hbuffer, hwrapped, ?_, hleft.cursorY, hleft.attrs, htop, hview⟩
    rw [hleft.cursorX]
    omega

/-- The end of a write moves the view, if anything. -/
theorem Restored.settled (wasAtBottom : Bool) :
    Restored t (s'.settle wasAtBottom)
      ↔ Restored t { s' with
          viewTop := if wasAtBottom then s'.screenTop else s'.viewTop } := by
  have hscrolled : ∃ dirtyRows, s'.settle wasAtBottom = { s' with
      viewTop := if wasAtBottom then s'.screenTop else s'.viewTop
      dirtyRows } := by
    cases wasAtBottom with
    | false => exact ⟨s'.dirtyRows, rfl⟩
    | true =>
      show ∃ dirtyRows, s'.scrollToBottom = _
      rw [Terminal.scrollToBottom]
      by_cases hmoved : s'.viewTop ≠ s'.screenTop
      · exact ⟨List.range s'.rows, if_pos hmoved⟩
      · refine ⟨s'.dirtyRows, ?_⟩
        rw [if_neg hmoved, if_pos rfl]
        exact congrArg (fun viewTop => { s' with viewTop }) (not_not.1 hmoved)
  obtain ⟨dirtyRows, hsettled⟩ := hscrolled
  rw [hsettled]
  exact ⟨fun h => { h with }, fun h => { h with }⟩

/-- At the end of the write the view has to be where it was, too. -/
theorem Left.restored_settled (h : Shape t) (hleft : Left t s')
    (wasAtBottom : Bool) :
    Restored t (s'.settle wasAtBottom)
      ↔ Returns t ∧ (t.viewTop = t.screenTop ∨ wasAtBottom = false) := by
  rw [Restored.settled, ← hleft.restored h]
  constructor
  · intro hsettled
    have hrestored : Restored t s' := by
      have hfilled : Filled t := by
        show t.screenTop + t.rows ≤ t.buffer.length
        rw [← hsettled.buffer, ← hsettled.screenTop]
        exact hleft.filled
      obtain ⟨-, -, -, hview⟩ := hleft.whole hfilled
      exact { hsettled with viewTop := hview }
    refine ⟨hrestored, ?_⟩
    cases wasAtBottom with
    | false => exact .inr rfl
    | true =>
      have hview : s'.screenTop = t.viewTop := hsettled.viewTop
      exact .inl (hview.symm.trans hrestored.screenTop)
  · rintro ⟨hrestored, hview⟩
    refine { hrestored with viewTop := ?_ }
    cases wasAtBottom with
    | false => exact hrestored.viewTop
    | true =>
      have hbottom : t.viewTop = t.screenTop :=
        hview.resolve_right fun hfalse => Bool.noConfusion hfalse
      show s'.screenTop = t.viewTop
      rw [hbottom]
      exact hrestored.screenTop

-- ==================================== runs

theorem run_shape {call : Call} {t' : Terminal} (h : Shape t)
    (hrun : t.run charWidth call = some t') : Shape t' := by
  rcases run_cases charWidth h call with ⟨t'', ht'', hkeeps, -⟩ | ⟨hfails, -⟩
  · rw [hrun, Option.some.injEq] at ht''
    rw [ht'']
    exact hkeeps.shape
  · rw [hrun] at hfails
    cases hfails

theorem op_shape {op : TerminalOp} {t' : Terminal} (h : Shape t)
    (hop : t.op charWidth op = some t') : Shape t' := by
  cases op with
  | write actions =>
    obtain ⟨s, hs, hsettled⟩ := Option.bind_eq_some_iff.1 hop
    rw [Option.some.injEq] at hsettled
    rw [← hsettled]
    have hshape : Shape s := execM_keeps (fun _ _ _ hs hrun => run_shape hs hrun)
      h hs
    exact (settle_follows hshape t.isAtBottom).shape
  | resize cols rows =>
    rw [← Option.some.inj hop]
    exact (resize_shape t cols rows).1
  | scrollView deltaLines =>
    rw [← Option.some.inj hop]
    exact (scrollView_follows h deltaLines).shape
  | scrollToBottom =>
    rw [← Option.some.inj hop]
    exact (scrollToBottom_follows h).shape
  | snapshot =>
    rw [← Option.some.inj hop]
    exact h
  | dirtySnapshot =>
    rw [← Option.some.inj hop]
    exact { h with }

/-- From any state of any run a visit begins, in the middle of a write: it does
not fail and adds nothing to the main screen. Leaving brings everything back
just if the cursor was in a column and the buffer held the screen. At the end
of the write that leaves it is still back just if, in addition, the view was at
the bottom, or the visit was within one write that began above it. -/
theorem restored_returns (charWidth : CharWidth) (cols rows : Nat)
    (ops : List TerminalOp) (before : List Call) (visit : Visit)
    (t₀ t : Terminal)
    (hops : execM (Terminal.op charWidth) (.new cols rows) ops = some t₀)
    (hbefore : execM (Terminal.run charWidth) t₀ before = some t)
    (hmain : t.altActive = false) (hstays : visit.Stays) :
    ∃ s wasAtBottom,
      t.visit charWidth t₀.isAtBottom visit = some (s, wasAtBottom)
        ∧ s.main = t.saved
        ∧ (Restored t s.leaveAltScreen ↔ Returns t)
        ∧ (Restored t (s.leaveAltScreen.settle wasAtBottom)
          ↔ Returns t ∧ (t.viewTop = t.screenTop
            ∨ t₀.isAtBottom = false ∧ visit.later = none)) := by
  have hshape₀ : Shape t₀ := execM_keeps (fun _ _ _ hs hop => op_shape hs hop)
    (new_shape cols rows) hops
  have hshape : Shape t := execM_keeps (fun _ _ _ hs hrun => run_shape hs hrun)
    hshape₀ hbefore
  obtain ⟨s, hs, hstaying⟩ := visit_some hshape hmain t₀.isAtBottom hstays
  have hleft := leave_left hshape hstaying
  refine ⟨s, _, hs, hstaying.main, hleft.restored hshape, ?_⟩
  rw [hleft.restored_settled hshape, Bool.or_eq_false_iff,
    Option.isSome_eq_false_iff, Option.isNone_iff_eq_none]

/-- A character of a wider screen, and one on the alternate screen. -/
theorem restored_column :
    ∃ s wasAtBottom,
      (Terminal.new 2 1).visit (fun _ => some 1)
          (Terminal.new 2 1).isAtBottom ⟨true, [.printChar 'a'], none⟩
        = some (s, wasAtBottom)
      ∧ s.main = (Terminal.new 2 1).saved
      ∧ (Restored (.new 2 1) s.leaveAltScreen ↔ Returns (.new 2 1))
      ∧ (Restored (.new 2 1) (s.leaveAltScreen.settle wasAtBottom)
        ↔ Returns (.new 2 1)
          ∧ ((Terminal.new 2 1).viewTop = (Terminal.new 2 1).screenTop
            ∨ (Terminal.new 2 1).isAtBottom = false
              ∧ (Visit.mk true [.printChar 'a'] none).later = none)) := by
  refine restored_returns (fun _ => some 1) 2 1 [] [] ⟨true, [.printChar 'a'], none⟩
    _ _ rfl rfl rfl ⟨fun call hcall => ?_, fun _ _ hlater => by cases hlater⟩
  rw [List.mem_singleton] at hcall
  rw [hcall]
  rintro (hleaves | hleaves) <;> cases hleaves

/-- A character in the last column leaves the cursor behind it, and leaving
puts it back into it. -/
theorem not_restored_behind :
    ¬ ∀ (charWidth : CharWidth) (cols rows : Nat) (ops : List TerminalOp)
      (before : List Call) (visit : Visit) (t₀ t : Terminal),
      execM (Terminal.op charWidth) (.new cols rows) ops = some t₀ →
      execM (Terminal.run charWidth) t₀ before = some t →
      t.altActive = false → visit.Stays →
      ∃ s wasAtBottom,
        t.visit charWidth t₀.isAtBottom visit = some (s, wasAtBottom)
          ∧ Restored t s.leaveAltScreen := by
  intro h
  obtain ⟨s, wasAtBottom, hvisit, hrestored⟩ := h (fun _ => some 1) 1 1 []
    [.printChar 'a'] ⟨true, [], none⟩ (.new 1 1) _ rfl rfl rfl
    ⟨fun _ hcall => absurd hcall List.not_mem_nil,
      fun _ _ hlater => by cases hlater⟩
  cases hvisit
  have hcursor := hrestored.cursorX
  revert hcursor
  decide

end RemoteDesk.TerminalCore
