/-
Receipts of the clipboard writes (`clipboard_publication.rs`).

# Receipts

A receipt is pending until it is written or failed, each by one compare-exchange.
The token of a receipt travels with the queued message; the store of the receipts
is asked by whoever waits for the outcome.

# Steps

A step is one atomic access. `pending` and `begin_write` of a token are places of
the token, and the calls of the store, which have its lock, are places of its lane;
`state` is a `Look` in both. The clock, the gate and the owner of the token are
answers.

# Results

`later_step` is what a step may do to a receipt; `settled_run` is the run of it. A
receipt that is written was reported as done. The code does not ask whether the
token was allowed to begin: both senders do, and in a run in which everybody does,
a receipt that is written was begun.
-/
import RemoteDesk.Lib.Holdings
import RemoteDesk.Lib.Runs

namespace RemoteDesk.Clipboard.WriteReceipts

open Lib

-- ================================ receipts

/-- 1, 2 and 3 in the code. -/
inductive ReceiptState
  | pending
  | written
  | failed
deriving DecidableEq, Repr

structure Receipt where
  state : ReceiptState := .pending
  writing : Bool := false
deriving DecidableEq, Repr

namespace Receipt

/-- The compare-exchange of `fail`. -/
def fail (receipt : Receipt) : Receipt :=
  if receipt.state = .pending then { receipt with state := .failed } else receipt

/-- The compare-exchange of `written`. -/
def write (receipt : Receipt) : Receipt :=
  if receipt.state = .pending then { receipt with state := .written } else receipt

end Receipt

/-- Where `Receipt::state` is: at the clock and the flag, at the failure of what is
too old, or at its answer. -/
inductive Look
  | reads
  | fails
  | loads
deriving DecidableEq, Repr

/-- Where the token of a receipt is; `again` is the second `pending` of
`begin_write`. -/
inductive TokenPlace
  | held
  | gate (again : Bool)
  | owner (again : Bool)
  | looks (again : Bool) (look : Look)
  | marks
  | dropped
deriving DecidableEq, Repr

/-- A receipt with its token. -/
structure ReceiptCell where
  receipt : Receipt := {}
  token : TokenPlace := .held
deriving DecidableEq, Repr

/-- What a step is told: the gate of the token is closed, its owner is gone or
forbids, and the receipt is five seconds old. -/
structure ReceiptAnswer where
  closed : Bool := false
  lost : Bool := false
  expired : Bool := false
deriving DecidableEq, Repr

/-- What a look does before it answers. -/
def Look.step (look : Look) (expired : Bool) (receipt : Receipt) : Receipt × Look :=
  match look with
  | .reads =>
    (receipt, if expired && !receipt.writing then .fails else .loads)
  | .fails => (receipt.fail, .loads)
  | .loads => (receipt, .loads)

/-- A step of the token within `begin_write`, and the answer of the call at its
end. -/
def ReceiptCell.tokenStep (cell : ReceiptCell) (answer : ReceiptAnswer) :
    ReceiptCell × Option Bool :=
  match cell.token with
  | .gate again =>
    ({ receipt := if answer.closed then cell.receipt.fail else cell.receipt
       token := .owner again }, none)
  | .owner again =>
    ({ receipt := if answer.lost then cell.receipt.fail else cell.receipt
       token := .looks again .reads }, none)
  | .looks false .loads =>
    if cell.receipt.state = .pending then ({ cell with token := .marks }, none)
    else ({ cell with token := .held }, some false)
  | .looks true .loads =>
    ({ cell with token := .held }, some (cell.receipt.state = .pending))
  | .looks again look =>
    ({ receipt := (look.step answer.expired cell.receipt).1
       token := .looks again (look.step answer.expired cell.receipt).2 }, none)
  | .marks =>
    ({ receipt := { cell.receipt with writing := true }
       token := .gate true }, none)
  | .held => (cell, none)
  | .dropped => (cell, none)

-- =================================== store

/-- `Publications`: the receipts by their ids, in order, with their cells. -/
structure Publications where
  next : Nat := 0
  receipts : List (Nat × Nat) := []
deriving DecidableEq, Repr

/-- The limit of the records that are kept. -/
def maxReceipts : Nat := 64

/-- `u64::MAX`. -/
def maxId : Nat := 2 ^ 64 - 1

/-- Where the call is that has the lock of the store. -/
inductive PublicationLane
  | free
  | shuts (id place : Nat)
  | looks (id place : Nat) (look : Look)
  /-- `reserve` at one record, and those behind it. -/
  | scans (id place : Nat) (look : Look) (rest : List (Nat × Nat))
deriving DecidableEq, Repr

inductive ReceiptEvent
  | reserved (id place : Nat)
  | refused
  | polled (id : Nat) (state : Option ReceiptState)
  | begun (place : Nat) (success : Bool)
  | wrote (place : Nat)
  | dropped (place : Nat)
deriving DecidableEq, Repr

structure ReceiptSystem where
  cells : List ReceiptCell := []
  publications : Publications := {}
  lane : PublicationLane := .free
  log : List ReceiptEvent := []
deriving DecidableEq, Repr

inductive ReceiptAction
  | reserve
  | poll (id : Nat) (shutdown : Bool)
  | laneSteps (answer : ReceiptAnswer)
  | beginWrite (place : Nat)
  | tokenSteps (place : Nat) (answer : ReceiptAnswer)
  | written (place : Nat)
  | drop (place : Nat)
deriving DecidableEq, Repr

namespace ReceiptSystem

def record (s : ReceiptSystem) (event : ReceiptEvent) : ReceiptSystem :=
  { s with log := s.log ++ [event] }

/-- The end of `reserve`: a receipt under the next id. -/
def reserves (s : ReceiptSystem) : ReceiptSystem :=
  if s.publications.next ≥ maxId then { s.record .refused with lane := .free }
  else
    { s.record (.reserved (s.publications.next + 1) s.cells.length) with
      cells := s.cells ++ [{}]
      publications :=
        { next := s.publications.next + 1
          receipts := s.publications.receipts
            ++ [(s.publications.next + 1, s.cells.length)] }
      lane := .free }

/-- `reserve` looks at the next record, or gives up. -/
def scan (s : ReceiptSystem) : List (Nat × Nat) → ReceiptSystem
  | [] => { s.record .refused with lane := .free }
  | (id, place) :: rest => { s with lane := .scans id place .reads rest }

/-- A record is removed to make room. -/
def evict (s : ReceiptSystem) (id : Nat) : ReceiptSystem :=
  { s with
    publications :=
      { s.publications with
        receipts := s.publications.receipts.filter fun job => job.1 ≠ id } }

/-- A step of the receipt in a cell. -/
def setReceipt (s : ReceiptSystem) (place : Nat) (f : Receipt → Receipt) :
    ReceiptSystem :=
  { s with
    cells := s.cells.modify place fun cell =>
      { cell with receipt := f cell.receipt } }

def stateAt (s : ReceiptSystem) (place : Nat) : Option ReceiptState :=
  s.cells[place]?.map fun cell => cell.receipt.state

def laneStep (s : ReceiptSystem) (answer : ReceiptAnswer) : ReceiptSystem :=
  match s.lane with
  | .free => s
  | .shuts id place =>
    { s.setReceipt place Receipt.fail with lane := .looks id place .reads }
  | .looks id place .loads =>
    { s.record (.polled id (s.stateAt place)) with lane := .free }
  | .looks id place look =>
    match s.cells[place]? with
    | none => s
    | some cell =>
      { s.setReceipt place fun receipt =>
          (look.step answer.expired receipt).1 with
        lane := .looks id place (look.step answer.expired cell.receipt).2 }
  | .scans id place .loads rest =>
    if s.stateAt place = some .pending then s.scan rest
    else (s.evict id).reserves
  | .scans id place look rest =>
    match s.cells[place]? with
    | none => s
    | some cell =>
      { s.setReceipt place fun receipt =>
          (look.step answer.expired receipt).1 with
        lane := .scans id place (look.step answer.expired cell.receipt).2 rest }

/-- A call of a token that nothing else is being done with. -/
def withToken (s : ReceiptSystem) (place : Nat)
    (f : ReceiptCell → ReceiptCell) (event : Option ReceiptEvent) : ReceiptSystem :=
  match s.cells[place]? with
  | none => s
  | some cell =>
    if cell.token = .held then
      { s with
        cells := s.cells.set place (f cell)
        log := s.log ++ event.toList }
    else s

def step (s : ReceiptSystem) : ReceiptAction → ReceiptSystem
  | .reserve =>
    if s.lane ≠ .free then s
    else if s.publications.receipts.length ≥ maxReceipts then
      s.scan s.publications.receipts
    else s.reserves
  | .poll id shutdown =>
    if s.lane ≠ .free then s
    else
      match s.publications.receipts.find? fun job => job.1 = id with
      | none => s.record (.polled id none)
      | some job =>
        { s with
          lane :=
            if shutdown then .shuts id job.2 else .looks id job.2 .reads }
  | .laneSteps answer => s.laneStep answer
  | .beginWrite place =>
    s.withToken place (fun cell => { cell with token := .gate false }) none
  | .tokenSteps place answer =>
    match s.cells[place]? with
    | none => s
    | some cell =>
      { s with
        cells := s.cells.set place (cell.tokenStep answer).1
        log := s.log ++ ((cell.tokenStep answer).2.map
          (ReceiptEvent.begun place)).toList }
  | .written place =>
    s.withToken place (fun cell => { cell with receipt := cell.receipt.write })
      (some (.wrote place))
  | .drop place =>
    s.withToken place
      (fun cell => { receipt := cell.receipt.fail, token := .dropped })
      (some (.dropped place))

end ReceiptSystem

-- ======================== what a step does

/-- What anything but the report of the write does to a receipt. -/
def Receipt.Fails (receipt receipt' : Receipt) : Prop :=
  receipt'.state = receipt.state
    ∨ (receipt.state = .pending ∧ receipt'.state = .failed)

theorem Receipt.Fails.later {receipt receipt' : Receipt} (h : receipt.Fails receipt')
    (hsettled : receipt.state ≠ .pending) : receipt'.state = receipt.state := by
  rcases h with hsame | ⟨hpending, -⟩
  · exact hsame
  · exact absurd hpending hsettled

theorem Receipt.Fails.written {receipt receipt' : Receipt}
    (h : receipt.Fails receipt') (hwritten : receipt'.state = .written) :
    receipt.state = .written := by
  rcases h with hsame | ⟨-, hfailed⟩
  · exact hsame.symm.trans hwritten
  · rw [hfailed] at hwritten
    exact ReceiptState.noConfusion hwritten

theorem Receipt.fail_fails (receipt : Receipt) : receipt.Fails receipt.fail := by
  rw [fail]
  by_cases hpending : receipt.state = .pending
  · rw [if_pos hpending]
    exact .inr ⟨hpending, rfl⟩
  · rw [if_neg hpending]
    exact .inl rfl

theorem Receipt.fail_settles (receipt : Receipt) : receipt.fail.state ≠ .pending := by
  rw [fail]
  by_cases hpending : receipt.state = .pending
  · rw [if_pos hpending]
    exact fun h => ReceiptState.noConfusion h
  · rw [if_neg hpending]
    exact hpending

theorem Look.step_fails (look : Look) (expired : Bool) (receipt : Receipt) :
    receipt.Fails (look.step expired receipt).1 := by
  cases look with
  | reads => exact .inl rfl
  | fails => exact receipt.fail_fails
  | loads => exact .inl rfl

theorem ReceiptCell.tokenStep_fails (cell : ReceiptCell) (answer : ReceiptAnswer) :
    cell.receipt.Fails (cell.tokenStep answer).1.receipt := by
  have hanswer : ∀ refused : Bool,
      cell.receipt.Fails (if refused then cell.receipt.fail else cell.receipt) := by
    intro refused
    cases refused
    · exact .inl rfl
    · exact cell.receipt.fail_fails
  obtain ⟨receipt, token⟩ := cell
  rcases token with _ | again | again | ⟨again, look⟩ | _ | _
  · exact .inl rfl
  · exact hanswer answer.closed
  · exact hanswer answer.lost
  · cases look with
    | reads => cases again <;> exact .inl rfl
    | fails => cases again <;> exact receipt.fail_fails
    | loads =>
      cases again
      · by_cases hpending : receipt.state = .pending
        · rw [ReceiptCell.tokenStep, if_pos hpending]
          exact .inl rfl
        · rw [ReceiptCell.tokenStep, if_neg hpending]
          exact .inl rfl
      · exact .inl rfl
  · exact .inl rfl
  · exact .inl rfl

/-- The cells after a step that reserves nothing, with what it logs: a receipt that
is not pending keeps its state, one that becomes written is reported, and one whose
token is dropped is settled. -/
structure Touches (cells cells' : List ReceiptCell) (events : List ReceiptEvent) :
    Prop where
  length : cells'.length = cells.length
  later : ∀ place cell, cells[place]? = some cell →
    ∃ cell', cells'[place]? = some cell'
      ∧ (cell.receipt.state ≠ .pending → cell'.receipt.state = cell.receipt.state)
      ∧ (cell'.receipt.state = .written → cell.receipt.state = .written
          ∨ .wrote place ∈ events)
  dropped : ∀ place, .dropped place ∈ events →
    ∃ cell', cells'[place]? = some cell' ∧ cell'.receipt.state ≠ .pending
  reserves : ∀ id place, .reserved id place ∉ events

/-- An event that no receipt follows. -/
def ReceiptEvent.plain : ReceiptEvent → Bool
  | .refused | .polled _ _ | .begun _ _ => true
  | .reserved _ _ | .wrote _ | .dropped _ => false

theorem Touches.same {events : List ReceiptEvent}
    (hplain : ∀ event ∈ events, event.plain = true) (cells : List ReceiptCell) :
    Touches cells cells events where
  length := rfl
  later _ cell hcell := ⟨cell, hcell, fun _ => rfl, .inl⟩
  dropped _ hevent := Bool.noConfusion (hplain _ hevent)
  reserves _ _ hevent := Bool.noConfusion (hplain _ hevent)

/-- One cell changes. -/
theorem Touches.set {cells : List ReceiptCell} {events : List ReceiptEvent}
    {place : Nat} {cell cell' : ReceiptCell} (hcell : cells[place]? = some cell)
    (hlater : cell.receipt.state ≠ .pending →
      cell'.receipt.state = cell.receipt.state)
    (hwritten : cell'.receipt.state = .written → cell.receipt.state = .written
      ∨ .wrote place ∈ events)
    (hdropped : ∀ other, .dropped other ∈ events → other = place
      ∧ cell'.receipt.state ≠ .pending)
    (hreserves : ∀ id other, .reserved id other ∉ events) :
    Touches cells (cells.set place cell') events where
  length := List.length_set
  later other old hold := by
    by_cases hother : place = other
    · subst hother
      rw [hcell] at hold
      cases hold
      exact ⟨cell', List.getElem?_set_self (List.getElem?_eq_some_iff.1 hcell).1,
        hlater, hwritten⟩
    · exact ⟨old, (List.getElem?_set_ne hother).trans hold, fun _ => rfl, .inl⟩
  dropped other hevent := by
    obtain ⟨rfl, hstate⟩ := hdropped other hevent
    exact ⟨cell', List.getElem?_set_self (List.getElem?_eq_some_iff.1 hcell).1,
      hstate⟩
  reserves := hreserves

/-- One cell changes, but no more than that its receipt fails. -/
theorem Touches.fails {cells : List ReceiptCell} {events : List ReceiptEvent}
    {place : Nat} {cell cell' : ReceiptCell} (hcell : cells[place]? = some cell)
    (hfails : cell.receipt.Fails cell'.receipt)
    (hplain : ∀ event ∈ events, event.plain = true) :
    Touches cells (cells.set place cell') events := by
  apply Touches.set hcell hfails.later fun hwritten => .inl (hfails.written hwritten)
  · exact fun _ hevent => Bool.noConfusion (hplain _ hevent)
  · exact fun _ _ hevent => Bool.noConfusion (hplain _ hevent)

/-- A step of the receipt alone, wherever the cell is. -/
theorem Touches.modify {f : Receipt → Receipt}
    (hf : ∀ receipt, Receipt.Fails receipt (f receipt)) (cells : List ReceiptCell) (place : Nat) :
    Touches cells
      (cells.modify place fun cell => { cell with receipt := f cell.receipt }) [] := by
  rcases hcell : cells[place]? with _ | cell
  · rw [List.modify_eq_self (List.getElem?_eq_none_iff.1 hcell)]
    exact Touches.same (fun _ hevent => absurd hevent List.not_mem_nil) cells
  · rw [List.modify_eq_set_getElem?, hcell]
    exact Touches.fails hcell (hf cell.receipt)
      fun _ hevent => absurd hevent List.not_mem_nil

/-- What `reserve` still has to look at is in the store. -/
def PublicationLane.Listed (receipts : List (Nat × Nat)) : PublicationLane → Prop
  | .scans id place _ rest => ∀ job ∈ (id, place) :: rest, job ∈ receipts
  | .free | .shuts _ _ | .looks _ _ _ => True

namespace ReceiptSystem

/-- The steps by what they do to the cells and the store. -/
inductive Goes (s : ReceiptSystem) (action : ReceiptAction) : ReceiptSystem → Prop
  | touches {cells : List ReceiptCell} {events : List ReceiptEvent}
      {lane : PublicationLane} (htouches : Touches s.cells cells events)
      (hwrote : ∀ place, .wrote place ∈ events → action = .written place)
      (hlane : lane.Listed s.publications.receipts) :
      Goes s action { s with cells, lane, log := s.log ++ events }
  | reserves (hroom : s.publications.receipts.length < maxReceipts) :
      Goes s action s.reserves
  | evicts {id place : Nat} (hlisted : (id, place) ∈ s.publications.receipts)
      (hstate : s.stateAt place ≠ some .pending) :
      Goes s action (s.evict id).reserves

/-- Nothing but the lane and the log changes. -/
theorem goes_lane (s : ReceiptSystem) (action : ReceiptAction)
    {events : List ReceiptEvent} {lane : PublicationLane}
    (hplain : ∀ event ∈ events, event.plain = true)
    (hlane : lane.Listed s.publications.receipts) :
    Goes s action { s with lane, log := s.log ++ events } :=
  .touches (Touches.same hplain s.cells)
    (fun _ hevent => Bool.noConfusion (hplain _ hevent)) hlane

theorem goes_same (s : ReceiptSystem) (action : ReceiptAction)
    {lane : PublicationLane} (hlane : lane.Listed s.publications.receipts) :
    Goes s action { s with lane } := by
  have hgoes := @goes_lane s action [] lane
    (fun _ hevent => absurd hevent List.not_mem_nil) hlane
  rwa [List.append_nil] at hgoes

theorem goes_receipt (s : ReceiptSystem) (action : ReceiptAction)
    {f : Receipt → Receipt} (hf : ∀ receipt, Receipt.Fails receipt (f receipt)) (place : Nat)
    {lane : PublicationLane} (hlane : lane.Listed s.publications.receipts) :
    Goes s action { s.setReceipt place f with lane } := by
  have hgoes := @Goes.touches s action _ [] lane (Touches.modify hf s.cells place)
    (fun _ hevent => absurd hevent List.not_mem_nil) hlane
  rwa [List.append_nil] at hgoes

theorem plain_singleton {event : ReceiptEvent} (hplain : event.plain = true) :
    ∀ other ∈ [event], other.plain = true := by
  intro other hmem
  rw [List.mem_singleton] at hmem
  rw [hmem]
  exact hplain

theorem goes_scan (s : ReceiptSystem) (action : ReceiptAction)
    {rest : List (Nat × Nat)}
    (hlisted : ∀ job ∈ rest, job ∈ s.publications.receipts) :
    Goes s action (s.scan rest) := by
  cases rest with
  | nil => exact s.goes_lane action (plain_singleton rfl) trivial
  | cons job rest => exact s.goes_same action hlisted

theorem goes_laneStep (s : ReceiptSystem) (action : ReceiptAction)
    (answer : ReceiptAnswer) (hlane : s.lane.Listed s.publications.receipts) :
    Goes s action (s.laneStep answer) := by
  rcases hat : s.lane with _ | ⟨id, place⟩ | ⟨id, place, look⟩
    | ⟨id, place, look, rest⟩
  · rw [laneStep, hat]
    exact s.goes_same action hlane
  · rw [laneStep, hat]
    exact s.goes_receipt action Receipt.fail_fails place trivial
  · cases look with
    | loads =>
      rw [laneStep, hat]
      exact s.goes_lane action (plain_singleton rfl) trivial
    | reads | fails =>
      simp only [laneStep, hat]
      rcases hcell : s.cells[place]? with _ | cell
      · exact s.goes_same action hlane
      · exact s.goes_receipt action
          (fun receipt => Look.step_fails _ answer.expired receipt) place trivial
  · have hlisted : ∀ job ∈ (id, place) :: rest, job ∈ s.publications.receipts := by
      rw [hat] at hlane
      exact hlane
    cases look with
    | loads =>
      simp only [laneStep, hat]
      by_cases hpending : s.stateAt place = some .pending
      · rw [if_pos hpending]
        exact s.goes_scan action
          fun job hjob => hlisted job (List.mem_cons_of_mem _ hjob)
      · rw [if_neg hpending]
        exact .evicts (hlisted _ List.mem_cons_self) hpending
    | reads | fails =>
      simp only [laneStep, hat]
      rcases hcell : s.cells[place]? with _ | cell
      · exact s.goes_same action hlane
      · exact s.goes_receipt action
          (fun receipt => Look.step_fails _ answer.expired receipt) place hlisted

/-- A call of a token that is held. -/
theorem goes_withToken (s : ReceiptSystem) (action : ReceiptAction) (place : Nat)
    {f : ReceiptCell → ReceiptCell} {event : Option ReceiptEvent}
    (hlane : s.lane.Listed s.publications.receipts)
    (htouches : ∀ cell, s.cells[place]? = some cell →
      Touches s.cells (s.cells.set place (f cell)) event.toList)
    (hwrote : ∀ other, event = some (.wrote other) → action = .written other) :
    Goes s action (s.withToken place f event) := by
  rw [withToken]
  rcases hcell : s.cells[place]? with _ | cell
  · exact s.goes_same action hlane
  · show Goes s action (if cell.token = .held then _ else _)
    by_cases hheld : cell.token = .held
    · rw [if_pos hheld]
      exact .touches (htouches cell hcell)
        (fun other hevent => hwrote other (Option.mem_toList.1 hevent)) hlane
    · rw [if_neg hheld]
      exact s.goes_same action hlane

theorem step_goes (s : ReceiptSystem) (action : ReceiptAction)
    (hlane : s.lane.Listed s.publications.receipts) : Goes s action (s.step action) := by
  cases action with
  | reserve =>
    rw [step]
    by_cases hfree : s.lane ≠ .free
    · rw [if_pos hfree]
      exact s.goes_same _ hlane
    rw [if_neg hfree]
    by_cases hfull : s.publications.receipts.length ≥ maxReceipts
    · rw [if_pos hfull]
      exact s.goes_scan _ fun _ hjob => hjob
    · rw [if_neg hfull]
      exact .reserves (Nat.lt_of_not_ge hfull)
  | poll id shutdown =>
    rw [step]
    by_cases hfree : s.lane ≠ .free
    · rw [if_pos hfree]
      exact s.goes_same _ hlane
    rw [if_neg hfree]
    split
    · exact s.goes_lane _ (plain_singleton rfl) hlane
    · rename_i job _
      cases shutdown
      · exact @goes_same s _ (.looks id job.2 .reads) trivial
      · exact @goes_same s _ (.shuts id job.2) trivial
  | laneSteps answer => exact s.goes_laneStep _ answer hlane
  | beginWrite place =>
    apply s.goes_withToken _ place hlane
    · exact fun cell hcell => Touches.fails hcell (.inl rfl)
        fun _ hevent => absurd hevent List.not_mem_nil
    · intro other hevent
      cases hevent
  | tokenSteps place answer =>
    rw [step]
    rcases hcell : s.cells[place]? with _ | cell
    · exact s.goes_same _ hlane
    have hplain : ∀ event ∈ ((cell.tokenStep answer).2.map
        (ReceiptEvent.begun place)).toList, event.plain = true := by
      intro event hevent
      obtain ⟨_, _, rfl⟩ := Option.map_eq_some_iff.1 (Option.mem_toList.1 hevent)
      rfl
    exact .touches (Touches.fails hcell (cell.tokenStep_fails answer) hplain)
      (fun _ hevent => Bool.noConfusion (hplain _ hevent)) hlane
  | written place =>
    apply s.goes_withToken _ place hlane
    · intro cell hcell
      apply Touches.set hcell
      · intro hsettled
        show cell.receipt.write.state = _
        rw [Receipt.write, if_neg hsettled]
      · exact fun _ => .inr (List.mem_singleton_self _)
      · exact fun _ hevent =>
          ReceiptEvent.noConfusion (List.mem_singleton.1 hevent)
      · exact fun _ _ hevent =>
          ReceiptEvent.noConfusion (List.mem_singleton.1 hevent)
    · intro other hevent
      cases hevent
      rfl
  | drop place =>
    apply s.goes_withToken _ place hlane
    · intro cell hcell
      have hfails := cell.receipt.fail_fails
      apply Touches.set hcell hfails.later fun hwritten => .inl (hfails.written hwritten)
      · intro other hevent
        cases List.mem_singleton.1 hevent
        exact ⟨rfl, cell.receipt.fail_settles⟩
      · exact fun _ _ hevent =>
          ReceiptEvent.noConfusion (List.mem_singleton.1 hevent)
    · intro other hevent
      cases hevent

-- ======================= a receipt settles

variable {cell : ReceiptCell} {place : Nat} {s : ReceiptSystem}

theorem getElem?_reserves
    (hcell : s.cells[place]? = some cell) : s.reserves.cells[place]? = some cell := by
  rw [reserves]
  by_cases hlast : s.publications.next ≥ maxId
  · rw [if_pos hlast]
    exact hcell
  · rw [if_neg hlast]
    exact (List.getElem?_append_left (List.getElem?_eq_some_iff.1 hcell).1).trans hcell

/-- A step leaves a receipt that is not pending as it is. -/
theorem Goes.later {s' : ReceiptSystem} {action : ReceiptAction}
    (h : Goes s action s') (hcell : s.cells[place]? = some cell) :
    ∃ cell', s'.cells[place]? = some cell' ∧ (cell.receipt.state ≠ .pending →
      cell'.receipt.state = cell.receipt.state) := by
  cases h with
  | touches htouches _ _ =>
    obtain ⟨cell', hcell', hlater, -⟩ := htouches.later place cell hcell
    exact ⟨cell', hcell', hlater⟩
  | reserves _ => exact ⟨cell, getElem?_reserves hcell, fun _ => rfl⟩
  | evicts _ _ => exact ⟨cell, getElem?_reserves hcell, fun _ => rfl⟩

-- =============================== invariant

/-- The ids that were given are less than the next one given. -/
def Increasing (before : List ReceiptEvent) (event : ReceiptEvent) : Prop :=
  ∀ id place id' place', event = .reserved id place →
    .reserved id' place' ∈ before → id' < id

/-- What every step keeps. -/
structure Kept (s : ReceiptSystem) : Prop where
  listed : s.lane.Listed s.publications.receipts
  reported : ∀ place cell, s.cells[place]? = some cell →
    cell.receipt.state = .written → .wrote place ∈ s.log
  dropped : ∀ place, .dropped place ∈ s.log →
    ∃ cell, s.cells[place]? = some cell ∧ cell.receipt.state ≠ .pending
  issued : ∀ id place, .reserved id place ∈ s.log → id ≤ s.publications.next
  increasing : EveryAt Increasing s.log
  records : s.publications.receipts.length ≤ maxReceipts
  ordered : s.publications.receipts.Pairwise (·.1 < ·.1)
  places : ∀ job ∈ s.publications.receipts, job.1 ≤ s.publications.next
    ∧ job.2 < s.cells.length

theorem Kept.touches (h : s.Kept) {cells : List ReceiptCell}
    {events : List ReceiptEvent} {lane : PublicationLane}
    (htouches : Touches s.cells cells events)
    (hlane : lane.Listed s.publications.receipts) :
    Kept { s with cells, lane, log := s.log ++ events } where
  listed := hlane
  reported place cell' hcell' hwritten := by
    have hplace : place < s.cells.length := by
      rw [← htouches.length]
      exact (List.getElem?_eq_some_iff.1 hcell').1
    obtain ⟨cell'', hat, -, hreported⟩ :=
      htouches.later place _ (List.getElem?_eq_getElem hplace)
    cases hat.symm.trans hcell'
    rcases hreported hwritten with hold | hnew
    · exact List.mem_append_left _
        (h.reported place _ (List.getElem?_eq_getElem hplace) hold)
    · exact List.mem_append_right _ hnew
  dropped place hevent := by
    rcases List.mem_append.1 hevent with hold | hnew
    · obtain ⟨cell, hcell, hsettled⟩ := h.dropped place hold
      obtain ⟨cell', hcell', hlater, -⟩ := htouches.later place cell hcell
      refine ⟨cell', hcell', ?_⟩
      rw [hlater hsettled]
      exact hsettled
    · exact htouches.dropped place hnew
  issued id place hevent := by
    rcases List.mem_append.1 hevent with hold | hnew
    · exact h.issued id place hold
    · exact absurd hnew (htouches.reserves id place)
  increasing := h.increasing.append fun event hevent _ _ id place _ _ heq _ =>
    absurd (heq ▸ hevent) (htouches.reserves id place)
  records := h.records
  ordered := h.ordered
  places job hjob := by
    obtain ⟨hnext, hplace⟩ := h.places job hjob
    exact ⟨hnext, htouches.length.symm ▸ hplace⟩

theorem Kept.reserves (h : s.Kept)
    (hroom : s.publications.receipts.length < maxReceipts) : s.reserves.Kept := by
  rw [ReceiptSystem.reserves]
  by_cases hlast : s.publications.next ≥ maxId
  · rw [if_pos hlast]
    exact h.touches (Touches.same (plain_singleton rfl) s.cells) trivial
  rw [if_neg hlast]
  refine
    { listed := trivial
      reported := fun place cell hcell hwritten => ?_
      dropped := fun place hevent => ?_
      issued := fun id place hevent => ?_
      increasing := ?_
      records := ?_
      ordered := ?_
      places := fun job hjob => ?_ }
  · rcases getElem?_append_one hcell with hold | ⟨-, hnew⟩
    · exact List.mem_append_left _ (h.reported place cell hold hwritten)
    · rw [hnew] at hwritten
      exact ReceiptState.noConfusion hwritten
  · rcases List.mem_append.1 hevent with hold | hnew
    · obtain ⟨cell, hcell, hsettled⟩ := h.dropped place hold
      exact ⟨cell, (List.getElem?_append_left
        (List.getElem?_eq_some_iff.1 hcell).1).trans hcell, hsettled⟩
    · exact ReceiptEvent.noConfusion (List.mem_singleton.1 hnew)
  · rcases List.mem_append.1 hevent with hold | hnew
    · exact Nat.le_succ_of_le (h.issued id place hold)
    · cases List.mem_singleton.1 hnew
      exact Nat.le_refl _
  · refine everyAt_snoc.2 ⟨h.increasing, fun id place id' place' heq hbefore => ?_⟩
    cases heq
    exact Nat.lt_succ_of_le (h.issued id' place' hbefore)
  · show (s.publications.receipts ++ [_]).length ≤ _
    rw [List.length_append, List.length_singleton]
    exact hroom
  · refine List.pairwise_append.2 ⟨h.ordered, List.pairwise_singleton _ _, ?_⟩
    intro job hjob new hnew
    rw [List.mem_singleton.1 hnew]
    exact Nat.lt_succ_of_le (h.places job hjob).1
  · show job.1 ≤ s.publications.next + 1 ∧ job.2 < (s.cells ++ [_]).length
    rw [List.length_append, List.length_singleton]
    rcases List.mem_append.1 hjob with hold | hnew
    · obtain ⟨hnext, hplace⟩ := h.places job hold
      omega
    · rw [List.mem_singleton.1 hnew]
      exact ⟨Nat.le_refl _, Nat.lt_succ_self _⟩

/-- The store without one record, before the lane lets it go. -/
theorem Kept.evict (h : s.Kept) (id : Nat) :
    Kept { s.evict id with lane := .free } where
  listed := trivial
  reported := h.reported
  dropped := h.dropped
  issued := h.issued
  increasing := h.increasing
  records := Nat.le_trans (List.length_filter_le _ _) h.records
  ordered := h.ordered.filter _
  places job hjob := h.places job (List.mem_of_mem_filter hjob)

theorem reserves_lane (s : ReceiptSystem) (lane : PublicationLane) :
    { s with lane }.reserves = s.reserves := rfl

/-- A record that is removed makes room. -/
theorem length_evict (h : s.Kept) {id : Nat}
    (hlisted : (id, place) ∈ s.publications.receipts) :
    (s.evict id).publications.receipts.length < maxReceipts := by
  refine Nat.lt_of_lt_of_le ?_ h.records
  refine List.length_filter_lt_length_iff_exists.2 ⟨_, hlisted, ?_⟩
  intro hkept
  exact of_decide_eq_true hkept rfl

theorem Kept.goes {s' : ReceiptSystem} (h : s.Kept) {action : ReceiptAction}
    (hgoes : Goes s action s') : s'.Kept := by
  cases hgoes with
  | touches htouches _ hlane => exact h.touches htouches hlane
  | reserves hroom => exact h.reserves hroom
  | evicts hlisted _ =>
    rw [← reserves_lane _ .free]
    exact (h.evict _).reserves (length_evict h hlisted)

theorem Kept.init : Kept {} where
  listed := trivial
  reported place cell hcell := by cases hcell
  dropped place hevent := absurd hevent List.not_mem_nil
  issued id place hevent := absurd hevent List.not_mem_nil
  increasing := everyAt_nil _
  records := Nat.zero_le _
  ordered := .nil
  places job hjob := absurd hjob List.not_mem_nil

theorem kept_run (actions : List ReceiptAction) : (exec step {} actions).Kept :=
  exec_invariant (fun s action hkept => hkept.goes (s.step_goes action hkept.listed))
    actions .init

theorem later_step (h : s.Kept) (action : ReceiptAction)
    (hcell : s.cells[place]? = some cell) :
    ∃ cell', (s.step action).cells[place]? = some cell' ∧
      (cell.receipt.state ≠ .pending → cell'.receipt.state = cell.receipt.state) :=
  (s.step_goes action h.listed).later hcell

/-- A receipt that is not pending is what it is to the end. -/
theorem settled_run (h : s.Kept) (more : List ReceiptAction)
    (hcell : s.cells[place]? = some cell)
    (hsettled : cell.receipt.state ≠ .pending) :
    ∃ cell', (exec step s more).cells[place]? = some cell'
      ∧ cell'.receipt.state = cell.receipt.state := by
  induction more generalizing s cell with
  | nil => exact ⟨cell, hcell, rfl⟩
  | cons action more ih =>
    obtain ⟨next, hnext, hlater⟩ := later_step h action hcell
    have hsame := hlater hsettled
    obtain ⟨cell', hcell', hstate⟩ :=
      ih (h.goes (s.step_goes action h.listed)) hnext (hsame.symm ▸ hsettled)
    exact ⟨cell', hcell', hstate.trans hsame⟩

/-- A step lets only go of a record that is not pending. -/
theorem step_keeps_pending (h : s.Kept) (action : ReceiptAction)
    {job : Nat × Nat} (hjob : job ∈ s.publications.receipts)
    (hgone : job ∉ (s.step action).publications.receipts) :
    ∃ cell, s.cells[job.2]? = some cell ∧ cell.receipt.state ≠ .pending := by
  have hadds : ∀ s' : ReceiptSystem, job ∈ s'.publications.receipts →
      job ∈ s'.reserves.publications.receipts := by
    intro s' hmem
    rw [reserves]
    by_cases hlast : s'.publications.next ≥ maxId
    · rw [if_pos hlast]
      exact hmem
    · rw [if_neg hlast]
      exact List.mem_append_left _ hmem
  have hgoes := s.step_goes action h.listed
  generalize s.step action = s' at hgone hgoes
  cases hgoes with
  | touches _ _ _ => exact absurd hjob hgone
  | reserves _ => exact absurd (hadds s hjob) hgone
  | @evicts id place hlisted hstate =>
    by_cases hid : job.1 = id
    · -- the ids are distinct, so this is the record that was looked at
      have hsame : job = (id, place) := by
        by_contra hother
        rcases List.pairwise_iff_getElem.1 h.ordered with hordered
        obtain ⟨i, hi, rfl⟩ := List.mem_iff_getElem.1 hjob
        obtain ⟨j, hj, hat⟩ := List.mem_iff_getElem.1 hlisted
        have hids : (s.publications.receipts[i]).1 = (s.publications.receipts[j]).1 := by
          rw [hat]
          exact hid
        rcases Nat.lt_trichotomy i j with hlt | rfl | hlt
        · exact absurd hids (Nat.ne_of_lt (hordered i j hi hj hlt))
        · exact hother hat
        · exact absurd hids.symm (Nat.ne_of_lt (hordered j i hj hi hlt))
      subst hsame
      have hplace := (h.places _ hjob).2
      refine ⟨_, List.getElem?_eq_getElem hplace, fun hpending => hstate ?_⟩
      rw [stateAt, List.getElem?_eq_getElem hplace]
      exact congrArg some hpending
    · exact absurd (hadds _ (List.mem_filter.2 ⟨hjob, decide_eq_true hid⟩)) hgone

-- ================================= results

/-- What holds of the receipts of a state. -/
structure ReceiptsHold (s : ReceiptSystem) : Prop where
  final : ∀ more (place : Nat) (cell : ReceiptCell), s.cells[place]? = some cell →
    cell.receipt.state ≠ .pending →
    ∃ cell', (exec step s more).cells[place]? = some cell'
      ∧ cell'.receipt.state = cell.receipt.state
  reported : ∀ place cell, s.cells[place]? = some cell →
    cell.receipt.state = .written → .wrote place ∈ s.log
  dropped : ∀ place, .dropped place ∈ s.log →
    ∃ cell, s.cells[place]? = some cell ∧ (cell.receipt.state = .failed
      ∨ cell.receipt.state = .written ∧ .wrote place ∈ s.log)
  increasing : EveryAt Increasing s.log
  records : s.publications.receipts.length ≤ maxReceipts
  keeps : ∀ action, ∀ job ∈ s.publications.receipts,
    job ∉ (s.step action).publications.receipts →
    ∃ cell, s.cells[job.2]? = some cell ∧ cell.receipt.state ≠ .pending

/-- Whoever reports a write was allowed to begin it. -/
def BegunFirst (s : ReceiptSystem) (action : ReceiptAction) : Prop :=
  ∀ place, action = .written place → .begun place true ∈ s.log

theorem begun_run {actions : List ReceiptAction}
    (h : Meets step BegunFirst {} actions) (place : Nat)
    (hwrote : .wrote place ∈ (exec step {} actions).log) :
    .begun place true ∈ (exec step {} actions).log := by
  have hstep : ∀ (s : ReceiptSystem) action, (s.Kept ∧ ∀ place, .wrote place ∈ s.log →
        .begun place true ∈ s.log) → BegunFirst s action →
      ((s.step action).Kept ∧ ∀ place, .wrote place ∈ (s.step action).log →
        .begun place true ∈ (s.step action).log) := by
    rintro s action ⟨hkept, hbegun⟩ hfirst
    refine ⟨hkept.goes (s.step_goes action hkept.listed), fun place hnow => ?_⟩
    have hreserves : ∀ s' : ReceiptSystem, s'.log = s.log →
        .wrote place ∈ s'.reserves.log → .begun place true ∈ s'.reserves.log := by
      intro s' hlog
      rw [reserves]
      split
      · intro hmem
        rw [← hlog] at hbegun
        rcases List.mem_append.1 hmem with hold | hnew
        · exact List.mem_append_left _ (hbegun place hold)
        · exact ReceiptEvent.noConfusion (List.mem_singleton.1 hnew)
      · intro hmem
        rw [← hlog] at hbegun
        rcases List.mem_append.1 hmem with hold | hnew
        · exact List.mem_append_left _ (hbegun place hold)
        · exact ReceiptEvent.noConfusion (List.mem_singleton.1 hnew)
    have hgoes := s.step_goes action hkept.listed
    generalize s.step action = s' at hnow hgoes
    cases hgoes with
    | touches _ hwrites _ =>
      rcases List.mem_append.1 hnow with hold | hnew
      · exact List.mem_append_left _ (hbegun place hold)
      · exact List.mem_append_left _ (hfirst place (hwrites place hnew))
    | reserves _ => exact hreserves s rfl hnow
    | evicts _ _ => exact hreserves _ rfl hnow
  have hinit : ∀ place : Nat, ReceiptEvent.wrote place ∈ ({} : ReceiptSystem).log →
      .begun place true ∈ ({} : ReceiptSystem).log :=
    fun _ hmem => absurd hmem List.not_mem_nil
  exact (Meets.invariant hstep h ⟨.init, hinit⟩).2 place hwrote

/-- In every run a receipt leaves `pending` once, to be written only where the write
was reported and failed where the token is dropped without that; the ids increase,
and the store is bounded and lets go of no pending receipt. Where nobody reports a
write that was not allowed to begin, a receipt that is written was begun. -/
theorem receipts_settle (actions : List ReceiptAction) :
    (exec step {} actions).ReceiptsHold ∧
      (Meets step BegunFirst {} actions → ∀ place cell,
        (exec step {} actions).cells[place]? = some cell →
        cell.receipt.state = .written →
        .begun place true ∈ (exec step {} actions).log) := by
  have hkept := kept_run actions
  refine ⟨?_, fun hfirst place cell hcell hwritten =>
    begun_run hfirst place (hkept.reported place cell hcell hwritten)⟩
  exact
    { final := fun more _ _ hcell hsettled => settled_run hkept more hcell hsettled
      reported := hkept.reported
      dropped := fun place hevent => by
        obtain ⟨cell, hcell, hsettled⟩ := hkept.dropped place hevent
        refine ⟨cell, hcell, ?_⟩
        cases hstate : cell.receipt.state with
        | pending => exact absurd hstate hsettled
        | failed => exact .inl rfl
        | written => exact .inr ⟨rfl, hkept.reported place cell hcell hstate⟩
      increasing := hkept.increasing
      records := hkept.records
      keeps := fun action _ hjob hgone =>
        step_keeps_pending hkept action hjob hgone }

/-- A write that nobody asked to begin is as good as any. -/
theorem not_written_begun :
    ¬ ∀ actions place cell, (exec step {} actions).cells[place]? = some cell →
      cell.receipt.state = .written →
      .begun place true ∈ (exec step {} actions).log := by
  intro h
  have hbegun := h [.reserve, .written 0] 0 { receipt := { state := .written } } rfl rfl
  revert hbegun
  decide

end ReceiptSystem

end RemoteDesk.Clipboard.WriteReceipts
