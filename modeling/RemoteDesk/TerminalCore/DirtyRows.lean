/-
The rows that a dirty snapshot reports
(rustdesk_ffi/src/terminal_core/terminal.rs).

# What goes wrong

A call marks rows of the screen, and a snapshot shows rows of the view. Where
the view is parked above the screen, the row of the view that a call changes
lies so many rows below the one that it marks. A row behind the end of the
buffer shows the current attributes, and changing them marks nothing.
-/
import RemoteDesk.TerminalCore.Safety

namespace RemoteDesk.TerminalCore

open Lib

variable {t : Terminal}

-- =============================== snapshots

/-- The cells that a snapshot has of a row. -/
def TerminalSnapshot.row (snapshot : TerminalSnapshot) (row : Nat) :
    List SnapshotCell :=
  (snapshot.cells.drop (row * snapshot.cols)).take snapshot.cols

/-- Rows of one width that are laid end to end. -/
theorem take_drop_flatMap_range {α : Type*} {f : Nat → List α} {width : Nat}
    (hwidth : ∀ row, (f row).length = width) (rows : Nat) {row : Nat}
    (hrow : row < rows) :
    (((List.range rows).flatMap f).drop (row * width)).take width = f row := by
  have hlength : ∀ n, ((List.range n).flatMap f).length = n * width := by
    intro n
    rw [List.length_flatMap]
    simp [hwidth]
  induction rows with
  | zero => exact absurd hrow (Nat.not_lt_zero _)
  | succ rows ih =>
    rw [List.range_succ, List.flatMap_append, List.flatMap_singleton]
    by_cases hlast : row = rows
    · rw [hlast, ← hlength rows, List.drop_left, List.take_of_length_le]
      exact (hwidth rows).le
    · have hbefore : row < rows := by omega
      have hfits : (row + 1) * width ≤ rows * width :=
        Nat.mul_le_mul_right width hbefore
      rw [Nat.succ_mul] at hfits
      rw [List.drop_append_of_le_length (by rw [hlength]; omega),
        List.take_append_of_le_length (by rw [List.length_drop, hlength]; omega)]
      exact ih hbefore

theorem length_viewRow (h : Shape t) (row : Nat) :
    (t.viewRow row).length = t.cols := by
  unfold Terminal.viewRow Terminal.shownRow
  rcases hrow : t.buffer[t.viewTop + row]? with _ | source
  · exact List.length_replicate
  · have hwidth := h.width source (List.mem_of_getElem? hrow)
    show ((source.take t.cols).map Cell.shown).length = t.cols
    rw [List.length_map, List.length_take]
    omega

theorem row_makeSnapshot (h : Shape t) {row : Nat} (hrow : row < t.rows) :
    t.makeSnapshot.row row = t.viewRow row :=
  take_drop_flatMap_range (length_viewRow h) t.rows hrow

-- ==================================== runs

/-- A terminal and the last dirty snapshot of it. -/
structure Observed where
  terminal : Terminal
  shown : Option TerminalSnapshot := none
deriving DecidableEq, Repr

def Observed.op (charWidth : CharWidth) (observed : Observed)
    (op : TerminalOp) : Option Observed := do
  let terminal ← observed.terminal.op charWidth op
  some
    { terminal
      shown :=
        if op = .dirtySnapshot then some observed.terminal.dirtySnapshot.2
        else observed.shown }

/-- A row that differs from what the last dirty snapshot had of it is reported
by the next. -/
def DirtySound (observed : Observed) : Prop :=
  ∀ shown, observed.shown = some shown →
    shown.cols = observed.terminal.cols → shown.rows = observed.terminal.rows →
      ∀ row < observed.terminal.rows,
        observed.terminal.dirtySnapshot.2.row row ≠ shown.row row →
          row ∈ observed.terminal.dirtySnapshot.2.dirtyRows

/-- The rows of the view that the calls of a write change are marked. -/
def OpSeen (charWidth : CharWidth) (observed : Observed) : TerminalOp → Prop
  | .write actions => MeetsM (Terminal.run charWidth) Seen observed.terminal
      (actions.flatMap perform)
  | _ => True

/-- A row that is not marked shows what the last dirty snapshot did. -/
structure Faithful (observed : Observed) : Prop where
  shape : Shape observed.terminal
  clean : ∀ shown, observed.shown = some shown →
    shown.cols = observed.terminal.cols → shown.rows = observed.terminal.rows →
      ∀ row < observed.terminal.rows, row ∉ observed.terminal.dirtyRows →
        observed.terminal.viewRow row = shown.row row

variable {observed : Observed}

theorem Faithful.dirtySound (h : Faithful observed) : DirtySound observed := by
  intro shown hshown hcols hrows row hrow hdiffers
  by_contra hclean
  have hsame := h.clean shown hshown hcols hrows row hrow hclean
  rw [← row_makeSnapshot h.shape hrow] at hsame
  exact hdiffers hsame

/-- A step that repaints stays faithful to what was shown. -/
theorem Faithful.repaints {t' : Terminal} (h : Faithful observed)
    (hkeeps : Keeps True True observed.terminal t') :
    Faithful { observed with terminal := t' } where
  shape := hkeeps.shape
  clean shown hshown hcols hrows row hrow hclean := by
    have hrow' : row < t'.rows := hrow
    obtain ⟨hclean', hsame⟩ := hkeeps.repaints trivial row hrow' hclean
    rw [hkeeps.rows] at hrow'
    have hcols' : shown.cols = observed.terminal.cols := hcols.trans hkeeps.cols
    have hrows' : shown.rows = observed.terminal.rows := hrows.trans hkeeps.rows
    exact hsame.trans (h.clean shown hshown hcols' hrows' row hrow' hclean')

/-- The calls of a write, as far as they are seen. -/
theorem write_keeps {charWidth : CharWidth} (h : Shape t) {actions : List VtAction}
    (hseen : MeetsM (Terminal.run charWidth) Seen t (actions.flatMap perform))
    {t' : Terminal} (hwrite : t.write charWidth actions = some t') :
    Keeps True True t t' := by
  rw [Terminal.write] at hwrite
  obtain ⟨s, hs, hsettled⟩ := Option.bind_eq_some_iff.1 hwrite
  have hcalls : Keeps True True t s := by
    refine hseen.keeps (fun s call s' hs hcall hrun => ?_) ?_ hs
    · rcases run_cases charWidth hs.shape call with
        ⟨s'', hrun', hkeeps, -⟩ | ⟨hfails, -⟩
      · rw [hrun, Option.some.injEq] at hrun'
        rw [hrun']
        exact (hs.trans hkeeps).mono (fun _ => trivial) fun _ => ⟨trivial, hcall⟩
      · rw [hrun] at hfails
        cases hfails
    · exact h.follows.toKeeps.mono False.elim id
  rw [Option.some.injEq] at hsettled
  rw [← hsettled]
  exact (hcalls.trans (settle_follows hcalls.shape t.isAtBottom).toKeeps).mono
    (fun _ => trivial) fun _ => ⟨trivial, trivial⟩

theorem Faithful.op {charWidth : CharWidth} {observed' : Observed}
    {op : TerminalOp} (h : Faithful observed)
    (hseen : OpSeen charWidth observed op)
    (hop : observed.op charWidth op = some observed') : Faithful observed' := by
  rw [Observed.op] at hop
  obtain ⟨t', ht', hresult⟩ := Option.bind_eq_some_iff.1 hop
  rw [Option.some.injEq] at hresult
  rw [← hresult]
  cases op with
  | write actions => exact h.repaints (write_keeps h.shape hseen ht')
  | resize cols rows =>
    rw [← Option.some.inj ht']
    obtain ⟨hshape, -, -, -, hall⟩ := resize_shape observed.terminal cols rows
    exact ⟨hshape, fun _ _ _ _ row hrow hclean => absurd (hall row hrow) hclean⟩
  | scrollView deltaLines =>
    rw [← Option.some.inj ht']
    exact h.repaints ((scrollView_follows h.shape deltaLines).toKeeps.mono
      False.elim id)
  | scrollToBottom =>
    rw [← Option.some.inj ht']
    exact h.repaints ((scrollToBottom_follows h.shape).toKeeps.mono
      False.elim id)
  | snapshot =>
    rw [← Option.some.inj ht']
    exact h
  | dirtySnapshot =>
    rw [← Option.some.inj ht']
    refine ⟨{ h.shape with }, fun shown hshown _ _ row hrow _ => ?_⟩
    rw [← Option.some.inj hshown]
    exact (row_makeSnapshot h.shape hrow).symm

/-- In a run whose calls change only rows of the view that they mark, or that
are marked, a row that differs from the last dirty snapshot is reported by the
next. -/
theorem dirtySound_seen (charWidth : CharWidth) (cols rows : Nat)
    (ops : List TerminalOp) (observed : Observed)
    (h : MeetsM (Observed.op charWidth) (OpSeen charWidth)
      { terminal := .new cols rows } ops)
    (hrun : execM (Observed.op charWidth) { terminal := .new cols rows } ops
      = some observed) : DirtySound observed := by
  have hstart : Faithful { terminal := .new cols rows } :=
    ⟨new_shape cols rows, fun _ hshown => by cases hshown⟩
  have hfaithful : Faithful observed := h.keeps
    (fun _ _ _ hs hseen hop => hs.op hseen hop) hstart hrun
  exact hfaithful.dirtySound

/-- A character is written at the bottom. -/
theorem dirtySound_bottom :
    ∃ observed, execM (Observed.op fun _ => some 1) { terminal := .new 2 2 }
        [.dirtySnapshot, .write [.print 'a']] = some observed
      ∧ DirtySound observed := by
  refine ⟨_, rfl, dirtySound_seen (fun _ => some 1) 2 2
    [.dirtySnapshot, .write [.print 'a']] _ ⟨trivial, fun s hs => ?_⟩ rfl⟩
  cases hs
  refine ⟨⟨⟨fun row hrow _ => ?_, .inl rfl⟩, fun _ _ => trivial⟩,
    fun _ _ => trivial⟩
  show row + 0 ∈ _ ∨ _
  exact .inl hrow

/-- Four lines on three rows, and the view a row up. -/
def parked : List TerminalOp :=
  [.write [.print 'a', .execute 13, .execute 10, .print 'b', .execute 13,
      .execute 10, .print 'c', .execute 13, .execute 10, .print 'd'],
    .scrollView (-1), .dirtySnapshot,
    .write [.csi [[1], [1]] [] 'H', .print 'x']]

/-- A character in the first row of the screen changes the second row of a view
that is parked a row up, and marks the first and the last. -/
theorem not_dirtySound_parked :
    ¬ ∀ (charWidth : CharWidth) (cols rows : Nat) (ops : List TerminalOp)
      (observed : Observed),
      execM (Observed.op charWidth) { terminal := .new cols rows } ops
        = some observed → DirtySound observed := by
  intro h
  have hrun : (execM (Observed.op fun _ => some 1) { terminal := .new 2 3 }
      parked).any (fun observed => observed.shown.any fun shown =>
        shown.cols == observed.terminal.cols
          && shown.rows == observed.terminal.rows
          && observed.terminal.rows == 3
          && observed.terminal.dirtySnapshot.2.row 1 != shown.row 1
          && !observed.terminal.dirtyRows.contains 1) = true := by
    decide +kernel
  obtain ⟨observed, hobserved, hfacts⟩ := (Option.any_eq_true _ _).1 hrun
  obtain ⟨shown, hshown, hfacts⟩ := (Option.any_eq_true _ _).1 hfacts
  simp only [Bool.and_eq_true, beq_iff_eq, bne_iff_ne, Bool.not_eq_true']
    at hfacts
  obtain ⟨⟨⟨⟨hcols, hrows⟩, hthree⟩, hdiffers⟩, hclean⟩ := hfacts
  have hsound := h _ 2 3 parked observed hobserved
  have hmarked := hsound shown hshown hcols hrows 1 (by omega) hdiffers
  rw [List.contains_eq_mem, decide_eq_false_iff_not] at hclean
  exact hclean hmarked

end RemoteDesk.TerminalCore
