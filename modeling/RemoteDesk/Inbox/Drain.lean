/-
The drain loop of `take_batch`, reduced to single pops.

`next_ordered_pending` compares five heads in a fixed order and keeps
the strictly older one; `foldl_prefer` reads the fold once, and
`nextOrderedPending_oldest` is what every proof uses: the source chosen
has a head, and no head is older. From there one turn of the loop is a
`Popped` (`popOrdered_popped`), the loop is a sequence of turns, and
`takeBatch_invariant` is the induction over it.
-/
import RemoteDesk.Inbox.Effects

namespace RemoteDesk.Inbox

namespace ControlInboxState

variable {s s' : ControlInboxState}

-- ============================== the choice

theorem headSequence_queues (s : ControlInboxState)
    (source : OrderedPending) :
    s.headSequence source = s.queues.headSequence source := by
  cases source <;> rfl

/-- The selection names a source whose head it carries, at least as old
as every head compared so far. -/
private def Selects (s : ControlInboxState)
    (seen : List OrderedPending) :
    Option (Nat × OrderedPending) → Prop
  | none => ∀ source ∈ seen, s.headSequence source = none
  | some (n, chosen) => s.headSequence chosen = some n
      ∧ ∀ source ∈ seen, ∀ other,
          s.headSequence source = some other → n ≤ other

private theorem selects_prefer {seen : List OrderedPending}
    {selected : Option (Nat × OrderedPending)}
    (h : Selects s seen selected) (source : OrderedPending) :
    Selects s (seen ++ [source]) (s.prefer selected source) := by
  unfold prefer
  cases hs : s.headSequence source with
  | none =>
    cases selected with
    | none =>
      intro x hx
      rcases List.mem_append.mp hx with hx | hx
      · exact h x hx
      · rw [List.mem_singleton.mp hx]; exact hs
    | some chosen =>
      obtain ⟨n, chosen⟩ := chosen
      refine ⟨h.1, fun x hx other ho => ?_⟩
      rcases List.mem_append.mp hx with hx | hx
      · exact h.2 x hx other ho
      · rw [List.mem_singleton.mp hx, hs] at ho; cases ho
  | some n =>
    cases selected with
    | none =>
      refine ⟨hs, fun x hx other ho => ?_⟩
      rcases List.mem_append.mp hx with hx | hx
      · rw [h x hx] at ho; cases ho
      · rw [List.mem_singleton.mp hx, hs] at ho
        cases ho; exact Nat.le_refl _
    | some chosen =>
      obtain ⟨m, chosen⟩ := chosen
      by_cases hlt : n < m
      · simp only [Option.all_some, hlt, decide_true, if_true]
        refine ⟨hs, fun x hx other ho => ?_⟩
        rcases List.mem_append.mp hx with hx | hx
        · exact Nat.le_trans (Nat.le_of_lt hlt) (h.2 x hx other ho)
        · rw [List.mem_singleton.mp hx, hs] at ho
          cases ho; exact Nat.le_refl _
      · simp only [Option.all_some, hlt, decide_false]
        refine ⟨h.1, fun x hx other ho => ?_⟩
        rcases List.mem_append.mp hx with hx | hx
        · exact h.2 x hx other ho
        · rw [List.mem_singleton.mp hx, hs] at ho
          cases ho; omega

private theorem foldl_prefer (sources : List OrderedPending) :
    ∀ {seen : List OrderedPending}
      {selected : Option (Nat × OrderedPending)},
      Selects s seen selected →
      Selects s (seen ++ sources) (sources.foldl s.prefer selected) := by
  induction sources with
  | nil => intro seen selected h; rwa [List.append_nil]
  | cons source sources ih =>
    intro seen selected h
    rw [List.append_cons]
    exact ih (selects_prefer h source)

private theorem selects_all (s : ControlInboxState) :
    Selects s [.reliable, .mouseMove, .touchUpdate, .mouseWheel2D,
      .displaySwitch] ([.reliable, .mouseMove, .touchUpdate,
        .mouseWheel2D, .displaySwitch].foldl s.prefer none) :=
  show Selects s ([] ++ _) _ from
    foldl_prefer _ (by intro x hx; cases hx)

/-- The chosen source has a head, and no source's head is older. -/
theorem nextOrderedPending_oldest {source : OrderedPending}
    (h : s.nextOrderedPending = some source) :
    ∃ n, s.queues.headSequence source = some n ∧ s.queues.Oldest n := by
  unfold nextOrderedPending at h
  have hall := selects_all s
  cases hsel : [OrderedPending.reliable, .mouseMove, .touchUpdate,
      .mouseWheel2D, .displaySwitch].foldl s.prefer none with
  | none => rw [hsel] at h; cases h
  | some chosen =>
    obtain ⟨n, chosen⟩ := chosen
    rw [hsel] at h hall
    cases h
    refine ⟨n, by rw [← headSequence_queues]; exact hall.1, ?_⟩
    intro x other hx
    rw [← headSequence_queues] at hx
    exact hall.2 x (by cases x <;> simp) other hx

/-- Nothing is chosen only when every source is empty. -/
theorem nextOrderedPending_none (h : s.nextOrderedPending = none)
    (source : OrderedPending) : s.queues.headSequence source = none := by
  unfold nextOrderedPending at h
  have hall := selects_all s
  rw [Option.map_eq_none_iff] at h
  rw [h] at hall
  rw [← headSequence_queues]
  exact hall source (by cases source <;> simp)

-- ================================ one turn

@[simp] theorem queues_onReliableSent (s : ControlInboxState)
    (m : ControlMsg) : (s.onReliableSent m).queues = s.queues := by
  unfold onReliableSent
  cases m
  case touchScale scale => dsimp only; split <;> rfl
  all_goals rfl

@[simp] theorem nextSequence_onReliableSent (s : ControlInboxState)
    (m : ControlMsg) :
    (s.onReliableSent m).nextSequence = s.nextSequence := by
  unfold onReliableSent
  cases m
  case touchScale scale => dsimp only; split <;> rfl
  all_goals rfl

/-- The touch slot's turn: what goes out and what stays are a split of
its entries, in order. -/
theorem takeTouchUpdate_split {pending : PendingTouchUpdate}
    (hs : s.touchUpdate = some pending) {room : Nat} :
    ∃ out rest,
      (s.takeTouchUpdate room).1 = out.map SequencedControl.delivery
      ∧ (s.takeTouchUpdate room).2.queues
          = { s.queues with touchUpdate := rest }
      ∧ (s.takeTouchUpdate room).2.nextSequence = s.nextSequence
      ∧ out ++ rest.elim [] PendingTouchUpdate.entries = pending.entries
      ∧ (∀ p ∈ rest, p.sequence = pending.sequence)
      ∧ (rest = none ∨ room ≤ out.length) := by
  unfold takeTouchUpdate
  rw [hs]
  obtain ⟨n, scale, pan⟩ := pending
  cases scale with
  | none =>
    by_cases hroom : 0 < room
    · cases pan with
      | none =>
        exact ⟨[], none, by simp, by simp [PendingTouchUpdate.isEmpty,
          queues, hroom], rfl, rfl, by simp, Or.inl rfl⟩
      | some pan =>
        exact ⟨[⟨n, .touchPanUpdate pan.1 pan.2⟩], none,
          by simp [hroom, SequencedControl.delivery],
          by simp [PendingTouchUpdate.isEmpty, queues, hroom],
          rfl, rfl, by simp, Or.inl rfl⟩
    · cases pan with
      | none =>
        exact ⟨[], none, by simp, by simp [PendingTouchUpdate.isEmpty,
          queues], rfl, rfl, by simp, Or.inl rfl⟩
      | some pan =>
        exact ⟨[], some ⟨n, none, some pan⟩, by simp [hroom],
          by simp [PendingTouchUpdate.isEmpty, queues, hroom],
          rfl, rfl, by simp, Or.inr (by simp; omega)⟩
  | some scale =>
    by_cases hroom : 1 < room
    · cases pan with
      | none =>
        exact ⟨[⟨n, .touchScale scale⟩], none,
          by simp [SequencedControl.delivery],
          by simp [PendingTouchUpdate.isEmpty, queues],
          rfl, rfl, by simp, Or.inl rfl⟩
      | some pan =>
        exact ⟨[⟨n, .touchScale scale⟩,
            ⟨n, .touchPanUpdate pan.1 pan.2⟩], none,
          by simp [hroom, SequencedControl.delivery],
          by simp [PendingTouchUpdate.isEmpty, queues, hroom],
          rfl, rfl, by simp, Or.inl rfl⟩
    · cases pan with
      | none =>
        exact ⟨[⟨n, .touchScale scale⟩], none,
          by simp [SequencedControl.delivery],
          by simp [PendingTouchUpdate.isEmpty, queues],
          rfl, rfl, by simp, Or.inl rfl⟩
      | some pan =>
        exact ⟨[⟨n, .touchScale scale⟩], some ⟨n, none, some pan⟩,
          by simp [hroom, SequencedControl.delivery],
          by simp [PendingTouchUpdate.isEmpty, queues, hroom],
          rfl, rfl, by simp, Or.inr (by simp; omega)⟩

theorem orderedPending_queues (s : ControlInboxState) :
    s.orderedPending = s.queues.reliable.length
      + s.queues.mouseMove.toList.length
      + s.queues.touchUpdate.toList.length
      + s.queues.mouseWheel2D.toList.length
      + s.queues.displaySwitch.toList.length := rfl

/-- One turn of the ordered loop is one pop of an oldest head. It
empties an entry, or it fills the batch. -/
theorem popOrdered_popped {room : Nat} {out : List Delivery}
    (h : s.popOrdered room = some (out, s')) :
    Popped s.queues out s'.queues ∧ s'.nextSequence = s.nextSequence
      ∧ (s'.orderedPending < s.orderedPending ∨ room ≤ out.length) := by
  rw [orderedPending_queues, orderedPending_queues]
  unfold popOrdered at h
  cases hn : s.nextOrderedPending with
  | none => rw [hn] at h; cases h
  | some source =>
    rw [hn] at h
    obtain ⟨n, hhead, hold⟩ := nextOrderedPending_oldest hn
    cases source with
    | reliable =>
      dsimp only at h
      cases hr : s.reliable with
      | nil => rw [hr] at h; cases h
      | cons e rest =>
        rw [hr] at h
        cases h
        have hq : s.queues.reliable = e :: rest := hr
        have he : n = e.sequence := by
          simpa [Queues.headSequence, hq] using hhead.symm
        rw [queues_onReliableSent, nextSequence_onReliableSent]
        refine ⟨.reliable e rest hq (he ▸ hold), rfl, Or.inl ?_⟩
        simp [queues, hr]
    | mouseMove =>
      obtain ⟨e, hq, hout⟩ := Option.map_eq_some_iff.mp h
      cases hout
      have hq' : s.queues.mouseMove = some e := hq
      have he : n = e.sequence := by
        simpa [Queues.headSequence, hq'] using hhead.symm
      refine ⟨.move e hq' (he ▸ hold), rfl, Or.inl ?_⟩
      simp [queues, hq]
    | touchUpdate =>
      cases hq : s.touchUpdate with
      | none =>
        have hq' : s.queues.touchUpdate = none := hq
        simp [Queues.headSequence, hq'] at hhead
      | some pending =>
        have hq' : s.queues.touchUpdate = some pending := hq
        have he : n = pending.sequence := by
          simpa [Queues.headSequence, hq'] using hhead.symm
        obtain ⟨es, rest, hes, hqs, hns, hsplit, hrest, hroom⟩ :=
          takeTouchUpdate_split hq
        have hout := Option.some.inj h
        rw [hout] at hes hqs hns
        dsimp only at hes hqs hns
        rw [hes, hqs]
        refine ⟨.touch pending es rest hq' (he ▸ hold) hsplit hrest,
          hns, ?_⟩
        rcases hroom with rfl | hroom
        · left; simp [hq']
        · right; rwa [List.length_map]
    | mouseWheel2D =>
      dsimp only at h
      cases hq : s.mouseWheel2D with
      | none =>
        have hq' : s.queues.mouseWheel2D = none := hq
        simp [Queues.headSequence, hq'] at hhead
      | some pending =>
        rw [hq] at h
        cases h
        have hq' : s.queues.mouseWheel2D = some pending := hq
        have he : n = pending.sequence := by
          simpa [Queues.headSequence, hq'] using hhead.symm
        refine ⟨.wheel pending hq' (he ▸ hold), rfl, Or.inl ?_⟩
        simp [queues, hq]
    | displaySwitch =>
      obtain ⟨e, hq, hout⟩ := Option.map_eq_some_iff.mp h
      cases hout
      have hq' : s.queues.displaySwitch = some e := hq
      have he : n = e.sequence := by
        simpa [Queues.headSequence, hq'] using hhead.symm
      refine ⟨.switch e hq' (he ▸ hold), rfl, Or.inl ?_⟩
      simp [queues, hq]

/-- The loop breaks only when nothing ordered is pending. -/
theorem popOrdered_eq_none {room : Nat}
    (h : s.popOrdered room = none) : s.nextOrderedPending = none := by
  unfold popOrdered at h
  cases hn : s.nextOrderedPending with
  | none => rfl
  | some source =>
    obtain ⟨n, hhead, -⟩ := nextOrderedPending_oldest hn
    rw [hn] at h
    cases source with
    | reliable =>
      dsimp only at h
      cases hr : s.reliable with
      | nil =>
        have hq : s.queues.reliable = [] := hr
        simp [Queues.headSequence, hq] at hhead
      | cons e rest => rw [hr] at h; cases h
    | mouseMove =>
      have hq : s.queues.mouseMove = none :=
        Option.map_eq_none_iff.mp h
      simp [Queues.headSequence, hq] at hhead
    | touchUpdate => cases h
    | mouseWheel2D =>
      dsimp only at h
      split at h <;> cases h
    | displaySwitch =>
      have hq : s.queues.displaySwitch = none :=
        Option.map_eq_none_iff.mp h
      simp [Queues.headSequence, hq] at hhead

-- ================================ the loop

/-- What a `take_batch` does to the state and the delivery log, one
piece at a time: a turn of the loop, a flag handed out, a note that the
batch was full. -/
structure DrainKeeps (Inv : ControlInboxState → List Delivery → Prop) :
    Prop where
  pop : ∀ s log room out s', Inv s log →
    s.popOrdered room = some (out, s') → Inv s' (log ++ out)
  refresh : ∀ s log, Inv s log →
    Inv { s with refreshPending := false }
      (log ++ [⟨none, .refreshVideo⟩])
  pressure : ∀ s log level, Inv s log →
    Inv { s with videoPressure := none }
      (log ++ [⟨none, .videoPressure level⟩])
  full : ∀ s log hits, Inv s log → Inv { s with batchLimitHits := hits } log

variable {Inv : ControlInboxState → List Delivery → Prop}

/-- The loop keeps what its turns keep. -/
theorem DrainKeeps.drainOrdered (h : DrainKeeps Inv) {limit : Nat}
    {log : List Delivery} :
    ∀ {fuel : Nat} {s : ControlInboxState} {batch : List Delivery},
      Inv s (log ++ batch) →
      Inv (s.drainOrdered limit fuel batch).2
        (log ++ (s.drainOrdered limit fuel batch).1) := by
  intro fuel
  induction fuel with
  | zero => exact fun hinv => hinv
  | succ fuel ih =>
    intro s batch hinv
    unfold ControlInboxState.drainOrdered
    split
    case isFalse => exact hinv
    case isTrue =>
      cases hp : s.popOrdered (limit - batch.length) with
      | none => exact hinv
      | some popped =>
        obtain ⟨out, s₁⟩ := popped
        have hpop := h.pop _ _ _ _ _ hinv hp
        rw [List.append_assoc] at hpop
        exact ih hpop

/-- So do the flags at the end. -/
theorem DrainKeeps.drainFlags (h : DrainKeeps Inv) {limit : Nat}
    {log batch : List Delivery} {s : ControlInboxState}
    (hinv : Inv s (log ++ batch)) :
    Inv (drainFlags limit batch s).2
      (log ++ (drainFlags limit batch s).1) := by
  have hpressure : ∀ {batch : List Delivery} {s : ControlInboxState},
      Inv s (log ++ batch) →
      Inv (drainPressure limit batch s).2
        (log ++ (drainPressure limit batch s).1) := by
    intro batch s hinv
    unfold drainPressure
    split
    · cases s.videoPressure with
      | none => exact hinv
      | some level =>
        have hkept := h.pressure _ _ level hinv
        rwa [List.append_assoc] at hkept
    · exact hinv
  unfold ControlInboxState.drainFlags drainRefresh
  by_cases hrefresh : batch.length < limit ∧ s.refreshPending = true
  · rw [if_pos hrefresh]
    have hkept := h.refresh _ _ hinv
    rw [List.append_assoc] at hkept
    exact hpressure hkept
  · rw [if_neg hrefresh]
    exact hpressure hinv

/-- The drain induction: a `take_batch` keeps what its pieces keep,
whatever its limit. -/
theorem DrainKeeps.takeBatch (h : DrainKeeps Inv) {s : ControlInboxState}
    {log : List Delivery} (limit : Nat) (hinv : Inv s log) :
    Inv (s.takeBatchSequenced limit).2
      (log ++ (s.takeBatchSequenced limit).1) := by
  unfold takeBatchSequenced
  split
  · simpa using hinv
  · dsimp only
    have hordered := @DrainKeeps.drainOrdered _ h limit log
      s.orderedPending s [] (by simpa using hinv)
    have hflags := @DrainKeeps.drainFlags _ h limit _ _ _ hordered
    split
    · exact h.full _ _ _ hflags
    · exact hflags

/-- An invariant of the queues and the delivery log that every pop
keeps, and that an unsequenced flag cannot break, is kept by every
`take_batch`. -/
theorem takeBatch_invariant {I : Queues → List Delivery → Prop}
    (hpop : ∀ q log out q', I q log → Popped q out q' →
      I q' (log ++ out))
    (hflag : ∀ q log d, I q log → d.IsFlag → I q (log ++ [d]))
    (limit : Nat) (log : List Delivery) (hinv : I s.queues log) :
    I (s.takeBatchSequenced limit).2.queues
        (log ++ (s.takeBatchSequenced limit).1)
      ∧ (s.takeBatchSequenced limit).2.nextSequence = s.nextSequence := by
  have hkeeps : DrainKeeps fun s₁ log =>
      I s₁.queues log ∧ s₁.nextSequence = s.nextSequence := by
    constructor
    · intro s₁ log room out s₂ h hp
      obtain ⟨hpopped, hn, -⟩ := popOrdered_popped hp
      exact ⟨hpop _ _ _ _ h.1 hpopped, hn.trans h.2⟩
    · exact fun s₁ log h => ⟨hflag _ _ _ h.1 ⟨rfl, rfl, rfl⟩, h.2⟩
    · exact fun s₁ log level h => ⟨hflag _ _ _ h.1 ⟨rfl, rfl, rfl⟩, h.2⟩
    · exact fun s₁ log hits h => h
  exact hkeeps.takeBatch limit ⟨hinv, rfl⟩

-- ================================ the fuel

/-- The loop only ever adds to the batch. -/
theorem drainOrdered_length {limit : Nat} :
    ∀ {fuel : Nat} {s s' : ControlInboxState}
      {batch batch' : List Delivery},
      s.drainOrdered limit fuel batch = (batch', s') →
      batch.length ≤ batch'.length := by
  intro fuel
  induction fuel with
  | zero => intro s s' batch batch' h; cases h; exact Nat.le_refl _
  | succ fuel ih =>
    intro s s' batch batch' h
    unfold drainOrdered at h
    split at h
    case isFalse => cases h; exact Nat.le_refl _
    case isTrue =>
      cases hp : s.popOrdered (limit - batch.length) with
      | none => rw [hp] at h; cases h; exact Nat.le_refl _
      | some popped =>
        rw [hp] at h
        have hlen := ih h
        rw [List.length_append] at hlen
        omega

/-- Enough fuel: the loop ends because the batch is full or because
nothing ordered is pending, never because it ran out. -/
theorem drainOrdered_stops {limit : Nat} :
    ∀ {fuel : Nat} {s s' : ControlInboxState}
      {batch batch' : List Delivery},
      s.orderedPending ≤ fuel →
      s.drainOrdered limit fuel batch = (batch', s') →
      limit ≤ batch'.length ∨ s'.nextOrderedPending = none := by
  intro fuel
  induction fuel with
  | zero =>
    intro s s' batch batch' hfuel h
    cases h
    right
    cases hp : s.popOrdered 1 with
    | none => exact popOrdered_eq_none hp
    | some popped =>
      obtain ⟨out, s₁⟩ := popped
      obtain ⟨hpopped, -, -⟩ := popOrdered_popped hp
      have hzero := Nat.le_zero.mp hfuel
      rw [orderedPending_queues] at hzero
      generalize s₁.queues = q₁ at hpopped
      cases hpopped with
      | reliable e rest hq => simp [hq] at hzero
      | move e hq => simp [hq] at hzero
      | touch pending es rest hq => simp [hq] at hzero
      | wheel pending hq => simp [hq] at hzero
      | switch e hq => simp [hq] at hzero
  | succ fuel ih =>
    intro s s' batch batch' hfuel h
    unfold drainOrdered at h
    split at h
    case isFalse hfull => cases h; left; omega
    case isTrue hlt =>
      cases hp : s.popOrdered (limit - batch.length) with
      | none => rw [hp] at h; cases h; exact Or.inr (popOrdered_eq_none hp)
      | some popped =>
        obtain ⟨out, s₁⟩ := popped
        rw [hp] at h
        dsimp only at h
        obtain ⟨-, -, hless | hroom⟩ := popOrdered_popped hp
        · exact ih (by omega) h
        · left
          have hlen := drainOrdered_length h
          rw [List.length_append] at hlen
          omega

/-- The flags go out while there is room. -/
theorem drainFlags_empties {limit : Nat} {batch : List Delivery}
    (hstop : limit ≤ batch.length ∨ s.nextOrderedPending = none)
    (hlt : (drainFlags limit batch s).1.length < limit) :
    (drainFlags limit batch s).2.hasPending = false := by
  have hqueues : batch.length < limit → s.reliable = [] ∧ s.mouseMove = none
      ∧ s.touchUpdate = none ∧ s.mouseWheel2D = none
      ∧ s.displaySwitch = none := by
    intro hlt
    have hnone := nextOrderedPending_none (hstop.resolve_left (by omega))
    refine ⟨?_, ?_, ?_, ?_, ?_⟩
    · simpa [Queues.headSequence, queues] using hnone .reliable
    · simpa [Queues.headSequence, queues] using hnone .mouseMove
    · simpa [Queues.headSequence, queues] using hnone .touchUpdate
    · simpa [Queues.headSequence, queues] using hnone .mouseWheel2D
    · simpa [Queues.headSequence, queues] using hnone .displaySwitch
  unfold drainFlags drainRefresh drainPressure at hlt ⊢
  cases hp : s.videoPressure <;> grind [hasPending]

/-- A batch is full or leaves nothing behind. -/
theorem takeBatch_empties (s : ControlInboxState) (limit : Nat) :
    limit ≤ (s.takeBatchSequenced limit).1.length
      ∨ (s.takeBatchSequenced limit).2.hasPending = false := by
  unfold takeBatchSequenced
  split
  case isTrue hzero => exact Or.inl (Nat.le_of_eq hzero)
  case isFalse =>
    dsimp only
    refine (Nat.lt_or_ge _ _).symm.imp_right fun hlt => ?_
    have hempty := drainFlags_empties
      (drainOrdered_stops (Nat.le_refl s.orderedPending) rfl) hlt
    split <;> exact hempty

end ControlInboxState

end RemoteDesk.Inbox
