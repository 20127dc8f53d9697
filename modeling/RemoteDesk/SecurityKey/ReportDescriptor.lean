/-
The report descriptor of a security key
(services/pro/ProFidoHidCodec.ets, `isProFidoReportDescriptor`).

The check reads a descriptor item by item and keeps of it the globals, one
pending usage and some counters. What the bytes say is read beside it after
HID 1.11, 6.2.2 (`Reader`): main items make events, globals persist, push and
pop keep and restore them, locals wait for the next main item, and a usage of
one or two bytes is completed there, with the page in force there. `Tracks`
ties the two together along the items.

The check completes such a usage where it stands. The two agree as long as the
page does not change between a usage and its main item (`Watch`); a report
has its page checked at the main item, a collection has not.
-/
import RemoteDesk.Lib.LittleEndian
import RemoteDesk.Lib.Runs

namespace RemoteDesk.SecurityKey.Descriptor

open Lib

-- ==================================== items

/-- The bytes of data a prefix announces. -/
def dataWidth (head : UInt8) : Nat :=
  if head.toNat &&& 3 = 3 then 4 else head.toNat &&& 3

/-- A short item. -/
structure Item where
  head : UInt8
  data : List UInt8
  fits : data.length = dataWidth head

namespace Item

variable (item : Item)

def width : Nat := dataWidth item.head
def value : Nat := leNat item.data
def type : Nat := (item.head.toNat >>> 2) &&& 3
def tag : Nat := item.head.toNat >>> 4
def bytes : List UInt8 := item.head :: item.data

theorem width_le (h : item.width ≠ 4) : item.width ≤ 2 := by
  have hle : item.head.toNat &&& 3 ≤ 3 := Nat.and_le_right
  unfold width dataWidth at h ⊢
  split at h
  · exact absurd rfl h
  · rw [if_neg ‹_›]
    omega

theorem value_lt : item.value < 256 ^ item.width := by
  rw [width, ← item.fits]
  exact leNat_lt item.data

end Item

/-- The items of a descriptor, `none` where one is cut short. HID 1.11
    defines no long item. -/
def items : List UInt8 → Option (List Item)
  | [] => some []
  | head :: rest =>
    if head = 0xfe then none
    else if h : (rest.take (dataWidth head)).length = dataWidth head then
      (items (rest.drop (dataWidth head))).map
        (⟨head, rest.take (dataWidth head), h⟩ :: ·)
    else none
termination_by bytes => bytes.length
decreasing_by
  simp only [List.length_drop, List.length_cons]
  omega

-- ================================ the check

/-- The variables of the loop. -/
structure State where
  page : Nat := 0
  usage : Option Nat := none
  size : Nat := 0
  count : Nat := 0
  depth : Nat := 0
  collections : Nat := 0
  inputs : Nat := 0
  outputs : Nat := 0

def PRO_FIDO_PACKET_SIZE : Nat := 64

/-- The main items, `none` for `return false`. -/
def State.main (st : State) (item : Item) : Option State :=
  if item.tag = 10 then
    if st.depth ≠ 0 ∨ st.collections + 1 ≠ 1 ∨ item.value ≠ 1
        ∨ st.usage ≠ some 0xf1d00001 then none
    else some { st with depth := 1, collections := st.collections + 1 }
  else if item.tag = 12 then
    if st.depth ≠ 1 ∨ item.width ≠ 0 ∨ st.usage ≠ none then none
    else some { st with depth := 0 }
  else if item.tag = 8 ∨ item.tag = 9 then
    if st.depth ≠ 1 ∨ st.page ≠ 0xf1d0 ∨ st.size ≠ 8
        ∨ st.count ≠ PRO_FIDO_PACKET_SIZE ∨ item.value &&& 7 ≠ 2 then none
    else if item.tag = 8 then
      if st.usage ≠ some 0xf1d00020 ∨ st.inputs + 1 ≠ 1 then none
      else some { st with inputs := st.inputs + 1 }
    else
      if st.usage ≠ some 0xf1d00021 ∨ st.outputs + 1 ≠ 1 then none
      else some { st with outputs := st.outputs + 1 }
  else none

/-- A turn of the loop, once the item is read. -/
def State.item (st : State) (item : Item) : Option State :=
  if item.type = 1 then
    if item.tag = 0 then some { st with page := item.value }
    else if item.tag = 7 then some { st with size := item.value }
    else if item.tag = 9 then some { st with count := item.value }
    else if item.tag = 8 ∨ item.tag = 10 ∨ item.tag = 11 then none
    else some st
  else if item.type = 2 then
    if item.tag ≠ 0 ∨ item.width = 0 ∨ st.usage ≠ none then none
    else some { st with
      usage := some (if item.width = 4 then item.value
        else st.page * 65536 + item.value) }
  else if item.type = 0 then
    (st.main item).map fun st => { st with usage := none }
  else none

/-- The loop from an offset on, over the bytes that are left. -/
def scan (st : State) : List UInt8 → Option State
  | [] => some st
  | head :: rest =>
    if head = 0xfe then none
    else if h : (rest.take (dataWidth head)).length = dataWidth head then
      (st.item ⟨head, rest.take (dataWidth head), h⟩).bind
        fun st => scan st (rest.drop (dataWidth head))
    else none
termination_by bytes => bytes.length
decreasing_by
  simp only [List.length_drop, List.length_cons]
  omega

/-- The condition the loop ends in. -/
def State.done (st : State) : Bool :=
  st.collections = 1 ∧ st.depth = 0 ∧ st.inputs = 1 ∧ st.outputs = 1
    ∧ st.usage = none

def isProFidoReportDescriptor (bytes : List UInt8) : Bool :=
  if bytes.length < 16 ∨ 4096 < bytes.length then false
  else ((scan {} bytes).map State.done).getD false

-- ================================= HID 1.11

structure Globals where
  page : Nat := 0
  size : Nat := 0
  count : Nat := 0
  id : Option Nat := none

/-- A local item that waits for its main item. -/
structure Pending where
  tag : Nat
  width : Nat
  value : Nat

/-- The tag of a local and its value. Usages (0) and their bounds (1 and 2) of
    at most two bytes belong to the page in force. -/
def Pending.complete (page : Nat) (p : Pending) : Nat × Nat :=
  (p.tag, if p.tag ≤ 2 ∧ p.width ≤ 2 then page * 65536 + p.value else p.value)

/-- What a main item says. The tag of a report is 8 for input, 9 for output
    and 11 for feature. -/
inductive Event
  | collection (kind : Nat) (locals : List (Nat × Nat))
  | endCollection
  | report (tag size count : Nat) (id : Option Nat) (locals : List (Nat × Nat))
  | reserved

structure Reader where
  globals : Globals := {}
  stack : List Globals := []
  locals : List Pending := []
  events : List Event := []

namespace Reader

def completed (r : Reader) : List (Nat × Nat) :=
  r.locals.map (Pending.complete r.globals.page)

def event (r : Reader) (item : Item) : Event :=
  if item.tag = 10 then .collection item.value r.completed
  else if item.tag = 12 then .endCollection
  else if item.tag = 8 ∨ item.tag = 9 ∨ item.tag = 11 then
    .report item.tag r.globals.size r.globals.count r.globals.id r.completed
  else .reserved

def global (r : Reader) (item : Item) : Reader :=
  if item.tag = 0 then
    { r with globals := { r.globals with page := item.value } }
  else if item.tag = 7 then
    { r with globals := { r.globals with size := item.value } }
  else if item.tag = 8 then
    { r with globals := { r.globals with id := some item.value } }
  else if item.tag = 9 then
    { r with globals := { r.globals with count := item.value } }
  else if item.tag = 10 then { r with stack := r.globals :: r.stack }
  else if item.tag = 11 then
    { r with globals := r.stack.headD r.globals, stack := r.stack.tail }
  else r

def read (r : Reader) (item : Item) : Reader :=
  if item.type = 0 then
    { r with locals := [], events := r.events ++ [r.event item] }
  else if item.type = 1 then r.global item
  else if item.type = 2 then
    { r with locals := r.locals ++ [⟨item.tag, item.width, item.value⟩] }
  else { r with events := r.events ++ [.reserved] }

end Reader

/-- The events of a descriptor. -/
def events (its : List Item) : List Event := (exec Reader.read {} its).events

/-- A report of 64 fields of 8 bits with one usage and no id. -/
def fidoReport (tag usage : Nat) : Event :=
  .report tag 8 64 none [(0, usage)]

/-- The descriptor of a FIDO device: one application collection of its usage,
    and in it one input report and one output report and nothing else. -/
def Sound (bytes : List UInt8) : Prop :=
  ∃ its reports, items bytes = some its
    ∧ List.Perm reports [fidoReport 8 0xf1d00020, fidoReport 9 0xf1d00021]
    ∧ events its
      = .collection 1 [(0, 0xf1d00001)] :: (reports ++ [.endCollection])

-- ================================= the pages

/-- The page in force, the pages at the pending usages of one or two bytes,
    and whether every main item so far found the one equal to the others. -/
structure Watch where
  page : Nat := 0
  bound : List Nat := []
  kept : Bool := true

def Watch.item (w : Watch) (item : Item) : Watch :=
  if item.type = 0 then
    { w with bound := [], kept := w.kept && w.bound.all (· = w.page) }
  else if item.type = 1 ∧ item.tag = 0 then { w with page := item.value }
  else if item.type = 2 ∧ item.tag = 0 ∧ item.width ≤ 2 then
    { w with bound := w.page :: w.bound }
  else w

/-- No usage of one or two bytes has its page changed before its main item. -/
def KeepsPage (bytes : List UInt8) : Prop :=
  ∃ its, items bytes = some its ∧ (exec Watch.item {} its).kept = true

-- ============================= bytes and items

/-- Items are read back from their bytes. -/
theorem items_bytes (its : List Item) (h : ∀ item ∈ its, item.head ≠ 0xfe) :
    items (its.flatMap Item.bytes) = some its := by
  induction its with
  | nil => rw [List.flatMap_nil, items]
  | cons item its ih =>
    have hdata : (item.data ++ its.flatMap Item.bytes).take
        (dataWidth item.head) = item.data := List.take_left' item.fits
    have hrest : (item.data ++ its.flatMap Item.bytes).drop
        (dataWidth item.head) = its.flatMap Item.bytes :=
      List.drop_left' item.fits
    rw [List.flatMap_cons, Item.bytes, List.cons_append, items,
      if_neg (h item List.mem_cons_self), hrest,
      ih fun it hit => h it (List.mem_cons_of_mem _ hit)]
    simp only [hdata, item.fits, ↓reduceDIte, Option.map_some]

/-- The loop is a run over the items. -/
theorem scan_eq (st : State) (bytes : List UInt8) :
    scan st bytes = (items bytes).bind (execM State.item st) := by
  induction bytes using items.induct generalizing st with
  | case1 => rw [scan, items]; rfl
  | case2 rest => rw [scan, items, if_pos rfl, if_pos rfl]; rfl
  | case3 head rest hhead hwidth ih =>
    rw [scan, items, if_neg hhead, if_neg hhead, dif_pos hwidth, dif_pos hwidth]
    cases hrest : items (rest.drop (dataWidth head)) with
    | none =>
      simp only [ih, hrest, Option.bind_none, Option.map_none]
      exact Option.bind_fun_none _
    | some its =>
      simp only [ih, hrest, Option.bind_some, Option.map_some, execM_cons]
  | case4 head rest hhead hwidth =>
    rw [scan, items, if_neg hhead, if_neg hhead, dif_neg hwidth, dif_neg hwidth]
    rfl

/-- A descriptor is accepted by its items. -/
theorem accepted_iff {bytes : List UInt8} :
    isProFidoReportDescriptor bytes = true ↔
      16 ≤ bytes.length ∧ bytes.length ≤ 4096 ∧ ∃ its st,
        items bytes = some its ∧ execM State.item {} its = some st
          ∧ st.done = true := by
  rw [isProFidoReportDescriptor, scan_eq]
  by_cases hlen : bytes.length < 16 ∨ 4096 < bytes.length
  · rw [if_pos hlen]
    constructor
    · rintro ⟨⟩
    · rintro ⟨h₁, h₂, -⟩
      omega
  · rw [if_neg hlen]
    cases hits : items bytes with
    | none => simp
    | some its =>
      cases hrun : execM State.item {} its with
      | none => simp [hrun]
      | some st =>
        simp only [Option.bind_some, hrun, Option.map_some, Option.getD_some]
        constructor
        · exact fun hdone => ⟨by omega, by omega, its, st, rfl, hrun, hdone⟩
        · rintro ⟨-, -, its', st₁, hits', hrun', hdone⟩
          cases hits'
          rw [hrun] at hrun'
          cases hrun'
          exact hdone

-- ================================ the readings

/-- The pending usage of the check against those of the reader. -/
def Waiting (usage : Option Nat) (locals : List Pending) (bound : List Nat) :
    Prop :=
  match usage with
  | none => locals = [] ∧ bound = []
  | some u => ∃ width value, locals = [⟨0, width, value⟩]
      ∧ (width ≤ 2 ∧ value < 65536
          ∧ (∃ page, bound = [page] ∧ u = page * 65536 + value)
        ∨ 2 < width ∧ bound = [] ∧ u = value)

/-- The check, the reader and the watch after the same items. -/
structure Tracks (st : State) (r : Reader) (w : Watch) : Prop where
  globals : r.globals = ⟨st.page, st.size, st.count, none⟩
  page : w.page = st.page
  waiting : Waiting st.usage r.locals w.bound
  events : st.collections = 0 ∧ st.depth = 0 ∧ st.inputs = 0 ∧ st.outputs = 0
      ∧ r.events = [] ∧ w.kept = true
    ∨ st.collections = 1 ∧ ∃ usage reports,
        r.events = .collection 1 [(0, usage)]
          :: (reports ++ if st.depth = 0 then [.endCollection] else [])
        ∧ List.Perm reports
            (List.replicate st.inputs (fidoReport 8 0xf1d00020)
              ++ List.replicate st.outputs (fidoReport 9 0xf1d00021))
        ∧ (w.kept = true ↔ usage = 0xf1d00001)

variable {st st' : State} {r : Reader} {w : Watch} {item : Item}

/-- Globals and locals. -/
theorem Tracks.side (h : Tracks st r w) (htype : item.type ≠ 0)
    (hstep : st.item item = some st') :
    Tracks st' (r.read item) (w.item item) := by
  rw [State.item] at hstep
  rw [Reader.read, if_neg htype, Watch.item, if_neg htype]
  by_cases hglobal : item.type = 1
  · rw [if_pos hglobal] at hstep ⊢
    by_cases h₀ : item.tag = 0
    · rw [if_pos h₀] at hstep
      rw [Reader.global, if_pos h₀, if_pos ⟨hglobal, h₀⟩]
      cases hstep
      exact { h with globals := by rw [h.globals], page := rfl }
    rw [if_neg h₀] at hstep
    rw [if_neg (by omega), if_neg (by omega), Reader.global, if_neg h₀]
    by_cases h₇ : item.tag = 7
    · rw [if_pos h₇] at hstep ⊢
      cases hstep
      exact { h with globals := by rw [h.globals] }
    rw [if_neg h₇] at hstep ⊢
    by_cases h₉ : item.tag = 9
    · rw [if_pos h₉] at hstep
      rw [if_neg (by omega), if_pos h₉]
      cases hstep
      exact { h with globals := by rw [h.globals] }
    rw [if_neg h₉] at hstep
    by_cases hother : item.tag = 8 ∨ item.tag = 10 ∨ item.tag = 11
    · rw [if_pos hother] at hstep
      cases hstep
    · rw [if_neg hother] at hstep
      rw [if_neg (by omega), if_neg h₉, if_neg (by omega), if_neg (by omega)]
      cases hstep
      exact h
  · rw [if_neg hglobal] at hstep ⊢
    by_cases hlocal : item.type = 2
    swap
    · rw [if_neg hlocal, if_neg htype] at hstep
      cases hstep
    rw [if_pos hlocal] at hstep ⊢
    by_cases hfirst : item.tag ≠ 0 ∨ item.width = 0 ∨ st.usage ≠ none
    · rw [if_pos hfirst] at hstep
      cases hstep
    rw [if_neg hfirst] at hstep
    simp only [ne_eq, not_or, not_not] at hfirst
    obtain ⟨htag, hwidth, husage⟩ := hfirst
    have hwaiting := h.waiting
    rw [husage] at hwaiting
    obtain ⟨hlocals, hbound⟩ := hwaiting
    cases hstep
    have hnot : ¬ (item.type = 1 ∧ item.tag = 0) := fun h => hglobal h.1
    rw [if_neg hnot, hlocals, htag, List.nil_append]
    by_cases hfour : item.width = 4
    · have hlong : ¬ (item.type = 2 ∧ 0 = 0 ∧ item.width ≤ 2) := by omega
      rw [if_pos hfour, if_neg hlong]
      exact { h with
        waiting := ⟨_, _, rfl, .inr ⟨by omega, hbound, rfl⟩⟩ }
    · have hshort := item.width_le hfour
      have hlt := item.value_lt.trans_le
        (Nat.pow_le_pow_right (by decide : 0 < 256) hshort)
      rw [if_neg hfour, if_pos ⟨hlocal, rfl, hshort⟩, hbound, h.page]
      exact { h with
        page := rfl
        waiting := ⟨_, _, rfl, .inl ⟨hshort, hlt, st.page, rfl, rfl⟩⟩ }

/-- What a pending usage comes to at a main item. -/
theorem Waiting.completed {u : Nat} (h : Waiting (some u) r.locals w.bound)
    (hpage : w.page = r.globals.page) :
    ∃ usage, r.completed = [(0, usage)]
      ∧ (w.bound.all (· = w.page) = true ↔ usage = u) := by
  obtain ⟨width, value, hlocals, hwaiting⟩ := h
  rw [Reader.completed, hlocals, hpage]
  rcases hwaiting with ⟨hshort, -, page, hbound, rfl⟩ | ⟨hlong, hbound, rfl⟩
  · refine ⟨r.globals.page * 65536 + value, ?_, ?_⟩
    · simp [Pending.complete, hshort]
    · simp [hbound]
      omega
  · refine ⟨u, ?_, by simp [hbound]⟩
    have hnot : ¬ width ≤ 2 := by omega
    simp [Pending.complete, hnot]

/-- Where the check has found the page itself, the usage is the one meant. -/
theorem Waiting.all_of_page {u : Nat} (h : Waiting (some u) r.locals w.bound)
    (hpage : u / 65536 = w.page) : w.bound.all (· = w.page) = true := by
  obtain ⟨width, value, -, hwaiting⟩ := h
  rcases hwaiting with ⟨-, hlt, page, hbound, rfl⟩ | ⟨-, hbound, -⟩
  · simp [hbound]
    omega
  · simp [hbound]

/-- A report the check counts. -/
theorem Tracks.event_report {u : Nat} (h : Tracks st r w)
    (htag : item.tag = 8 ∨ item.tag = 9)
    (hok : ¬ (st.depth ≠ 1 ∨ st.page ≠ 0xf1d0 ∨ st.size ≠ 8
      ∨ st.count ≠ PRO_FIDO_PACKET_SIZE ∨ item.value &&& 7 ≠ 2))
    (hu : st.usage = some u) (hpage : u / 65536 = 0xf1d0) :
    r.event item = fidoReport item.tag u
      ∧ (w.kept && w.bound.all (· = w.page)) = w.kept := by
  simp only [ne_eq, not_or, not_not] at hok
  obtain ⟨-, hst, hsize, hcount, -⟩ := hok
  have hwaiting := h.waiting
  rw [hu] at hwaiting
  have hall := hwaiting.all_of_page (hpage.trans (h.page.trans hst).symm)
  obtain ⟨usage, hcompleted, husage⟩ :=
    hwaiting.completed (h.page.trans (congrArg Globals.page h.globals).symm)
  obtain rfl := husage.mp hall
  refine ⟨?_, by rw [hall, Bool.and_true]⟩
  rw [Reader.event, if_neg (by omega), if_neg (by omega), if_pos (by omega),
    hcompleted, h.globals, hsize, hcount]
  rfl

theorem Tracks.main (h : Tracks st r w) (htype : item.type = 0)
    (hstep : st.main item = some st') :
    Tracks { st' with usage := none } (r.read item) (w.item item) := by
  rw [Reader.read, if_pos htype, Watch.item, if_pos htype]
  rw [State.main] at hstep
  by_cases hcollection : item.tag = 10
  · rw [if_pos hcollection] at hstep
    split at hstep
    · cases hstep
    rename_i hok
    simp only [ne_eq, not_or, not_not] at hok
    obtain ⟨hdepth, hone, hvalue, hu⟩ := hok
    cases hstep
    refine ⟨h.globals, h.page, ⟨rfl, rfl⟩, .inr ⟨hone, ?_⟩⟩
    have hwaiting := h.waiting
    rw [hu] at hwaiting
    obtain ⟨usage, hcompleted, husage⟩ :=
      hwaiting.completed (h.page.trans (congrArg Globals.page h.globals).symm)
    obtain ⟨-, -, hinputs, houtputs, hevents, hkept⟩ :=
      h.events.resolve_right fun h => by omega
    refine ⟨usage, [], ?_, ?_, ?_⟩
    · rw [hevents, Reader.event, if_pos hcollection, hvalue, hcompleted]
      rfl
    · rw [hinputs, houtputs]
      exact List.Perm.refl _
    · rw [hkept, Bool.true_and, husage]
  rw [if_neg hcollection] at hstep
  by_cases hend : item.tag = 12
  · rw [if_pos hend] at hstep
    split at hstep
    · cases hstep
    rename_i hok
    simp only [ne_eq, not_or, not_not] at hok
    obtain ⟨hdepth, -, hu⟩ := hok
    cases hstep
    have hwaiting := h.waiting
    rw [hu] at hwaiting
    obtain ⟨-, hbound⟩ := hwaiting
    obtain ⟨hone, usage, reports, hevents, hreports, hkept⟩ :=
      h.events.resolve_left fun h => by omega
    refine ⟨h.globals, h.page, ⟨rfl, rfl⟩, .inr ⟨hone, usage, reports, ?_,
      hreports, ?_⟩⟩
    · rw [hevents, if_neg (by omega), if_pos rfl, List.append_nil,
        Reader.event, if_neg hcollection, if_pos hend]
      rfl
    · rw [hbound, List.all_nil, Bool.and_true]
      exact hkept
  rw [if_neg hend] at hstep
  by_cases hreport : item.tag = 8 ∨ item.tag = 9
  swap
  · rw [if_neg hreport] at hstep
    cases hstep
  rw [if_pos hreport] at hstep
  split at hstep
  · cases hstep
  rename_i hok
  have hdepth : st.depth = 1 := not_not.mp fun h => hok (.inl h)
  obtain ⟨hone, usage, reports, hevents, hreports, hkept⟩ :=
    h.events.resolve_left fun h => by omega
  have hopen : ¬ st.depth = 0 := by omega
  rw [if_neg hopen, List.append_nil] at hevents
  by_cases hinput : item.tag = 8
  · rw [if_pos hinput] at hstep
    split at hstep
    · cases hstep
    rename_i husage
    simp only [ne_eq, not_or, not_not] at husage
    obtain ⟨hevent, hall⟩ := h.event_report hreport hok husage.1 (by decide)
    cases hstep
    refine ⟨h.globals, h.page, ⟨rfl, rfl⟩, .inr ⟨hone, usage,
      reports ++ [fidoReport 8 0xf1d00020], ?_, ?_, ?_⟩⟩
    · rw [hevents, hevent, hinput, if_neg hopen, List.append_nil]
      rfl
    · rw [List.replicate_succ, List.cons_append]
      exact (List.perm_append_singleton _ _).trans (hreports.cons _)
    · rw [hall]
      exact hkept
  · rw [if_neg hinput] at hstep
    split at hstep
    · cases hstep
    rename_i husage
    simp only [ne_eq, not_or, not_not] at husage
    obtain ⟨hevent, hall⟩ := h.event_report hreport hok husage.1 (by decide)
    cases hstep
    refine ⟨h.globals, h.page, ⟨rfl, rfl⟩, .inr ⟨hone, usage,
      reports ++ [fidoReport 9 0xf1d00021], ?_, ?_, ?_⟩⟩
    · rw [hevents, hevent, hreport.resolve_left hinput, if_neg hopen,
        List.append_nil]
      rfl
    · rw [List.replicate_succ', ← List.append_assoc]
      exact hreports.append_right _
    · rw [hall]
      exact hkept

theorem Tracks.step (h : Tracks st r w) (hstep : st.item item = some st') :
    Tracks st' (r.read item) (w.item item) := by
  by_cases htype : item.type = 0
  · rw [State.item, if_neg (by omega), if_neg (by omega), if_pos htype,
      Option.map_eq_some_iff] at hstep
    obtain ⟨st₁, hmain, rfl⟩ := hstep
    exact h.main htype hmain
  · exact h.side htype hstep

theorem Tracks.run (its : List Item) (h : Tracks st r w)
    (hrun : execM State.item st its = some st') :
    Tracks st' (exec Reader.read r its) (exec Watch.item w its) := by
  induction its generalizing st r w with
  | nil =>
    cases hrun
    exact h
  | cons item its ih =>
    rw [execM_cons, Option.bind_eq_some_iff] at hrun
    obtain ⟨st₁, hstep, hrun⟩ := hrun
    exact ih (h.step hstep) hrun

theorem tracks_init : Tracks {} {} {} :=
  ⟨rfl, rfl, ⟨rfl, rfl⟩, .inl ⟨rfl, rfl, rfl, rfl, rfl, rfl⟩⟩

/-- What an accepted descriptor says, but for the usage of its collection. -/
theorem accepted_events {bytes : List UInt8}
    (h : isProFidoReportDescriptor bytes = true) :
    ∃ its reports usage, items bytes = some its
      ∧ List.Perm reports [fidoReport 8 0xf1d00020, fidoReport 9 0xf1d00021]
      ∧ events its = .collection 1 [(0, usage)] :: (reports ++ [.endCollection])
      ∧ ((exec Watch.item {} its).kept = true ↔ usage = 0xf1d00001) := by
  obtain ⟨-, -, its, st, hits, hrun, hdone⟩ := accepted_iff.mp h
  obtain ⟨hone, hdepth, hinputs, houtputs, -⟩ : st.collections = 1
      ∧ st.depth = 0 ∧ st.inputs = 1 ∧ st.outputs = 1 ∧ st.usage = none :=
    of_decide_eq_true hdone
  obtain ⟨-, usage, reports, hevents, hreports, hkept⟩ :=
    (tracks_init.run its hrun).events.resolve_left fun h => by omega
  rw [hinputs, houtputs] at hreports
  rw [if_pos hdepth] at hevents
  exact ⟨its, reports, usage, hits, hreports, hevents, hkept⟩

/-- An accepted descriptor is one of a FIDO device where no usage has its page
    changed before its main item. -/
theorem descriptor_sound_iff (bytes : List UInt8)
    (h : isProFidoReportDescriptor bytes = true) :
    Sound bytes ↔ KeepsPage bytes := by
  obtain ⟨its, reports, usage, hits, hreports, hevents, hkept⟩ :=
    accepted_events h
  constructor
  · rintro ⟨its', reports', hits', -, hevents'⟩
    rw [hits, Option.some.injEq] at hits'
    subst hits'
    rw [hevents] at hevents'
    have hhead := (List.cons.inj hevents').1
    refine ⟨its, hits, hkept.mpr ?_⟩
    simpa using hhead
  · rintro ⟨its', hits', hkept'⟩
    rw [hits, Option.some.injEq] at hits'
    subst hits'
    rw [hkept.mp hkept'] at hevents
    exact ⟨its, reports, hits, hreports, hevents⟩

/-- A short item, from the bytes of its data. -/
def short (head : UInt8) (data : List UInt8)
    (fits : data.length = dataWidth head := by decide) : Item :=
  ⟨head, data, fits⟩

/-- The descriptor of a FIDO device as the devices write it. -/
def fidoItems : List Item :=
  [short 0x06 [0xd0, 0xf1], short 0x09 [0x01], short 0xa1 [0x01],
   short 0x09 [0x20], short 0x75 [0x08], short 0x95 [0x40],
   short 0x81 [0x02], short 0x09 [0x21], short 0x91 [0x02], short 0xc0 []]

/-- The same with the page of the generic desktop in force where the
    collection opens: one of usage 0001:0001, a pointer. -/
def pointerItems : List Item :=
  [short 0x06 [0xd0, 0xf1], short 0x09 [0x01], short 0x05 [0x01],
   short 0xa1 [0x01], short 0x06 [0xd0, 0xf1], short 0x09 [0x20],
   short 0x75 [0x08], short 0x95 [0x40], short 0x81 [0x02],
   short 0x09 [0x21], short 0x91 [0x02], short 0xc0 []]

theorem accepted_of_items {its : List Item}
    (hlong : ∀ item ∈ its, item.head ≠ 0xfe)
    (hlen : 16 ≤ (its.flatMap Item.bytes).length
      ∧ (its.flatMap Item.bytes).length ≤ 4096)
    (hdone : (execM State.item {} its).any State.done = true) :
    isProFidoReportDescriptor (its.flatMap Item.bytes) = true := by
  obtain ⟨st, hrun, hst⟩ := Option.any_eq_true .. |>.mp hdone
  exact accepted_iff.mpr
    ⟨hlen.1, hlen.2, its, st, items_bytes its hlong, hrun, hst⟩

theorem descriptor_sound_fido : Sound (fidoItems.flatMap Item.bytes) :=
  (descriptor_sound_iff (fidoItems.flatMap Item.bytes)
    (accepted_of_items (by decide) (by decide) (by decide))).mpr
      ⟨fidoItems, items_bytes fidoItems (by decide), by decide⟩

/-- The pointer is accepted as well. -/
theorem pointer_accepted :
    ¬ ∀ bytes, isProFidoReportDescriptor bytes = true → Sound bytes := by
  intro h
  have hitems := items_bytes pointerItems (by decide)
  obtain ⟨its, reports, hits, -, hevents⟩ :=
    h (pointerItems.flatMap Item.bytes)
      (accepted_of_items (by decide) (by decide) (by decide))
  rw [hitems] at hits
  cases hits
  have hpointer : (events pointerItems).head?
      = some (.collection 1 [(0, 0x00010001)]) := rfl
  rw [hevents, List.head?_cons] at hpointer
  simp at hpointer

end RemoteDesk.SecurityKey.Descriptor
