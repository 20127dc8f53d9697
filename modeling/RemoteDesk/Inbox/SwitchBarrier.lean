/-
A display switch as a barrier between two coordinate spaces.

`DisplaySwitch` drops the pointer deltas that were not yet sent and
takes a number, so that everything queued later is ordered behind it.
But a second switch replaces the first in the slot and takes a newer
number: what was queued between the two is then ordered ahead of both,
and reaches the peer before any switch does (`switch_replaced`).

`switch_barrier` is the exact complement: the barrier holds in every run
that accepts no switch while one is pending and a pointer message waits
behind it.

# Folded deltas

A delivered touch or wheel message stands for every accepted delta
folded into it (`Ledger.Carries`), and the barrier is stated for each of
them: a delta accepted before a switch must not ride across in an entry
that was renumbered after it.
-/
import RemoteDesk.Inbox.Trace

namespace RemoteDesk.Inbox

open Lib

-- =========================== the statement

namespace Ledger

/-- The accepted message `e` reaches the peer in delivery `d`. -/
def Carries (l : Ledger) (d : Delivery) (e : SequencedControl) : Prop :=
  e ∈ l.accepted ∧ e.message.shape = d.message.shape
    ∧ ∃ n, d.sequence = some n ∧ e.sequence ∈ l.merged n

/-- A switch accepted no earlier than `k` is among `log`. -/
def Passed (l : Ledger) (log : List Delivery) (k : SequencedControl) :
    Prop :=
  ∃ k' ∈ l.accepted, k'.message.isSwitch = true
    ∧ k.sequence ≤ k'.sequence ∧ k'.delivery ∈ log

/-- The barrier for one pointer delivery: after every switch accepted
before it, or a later one, and before every switch accepted after it. -/
def BarrierAt (l : Ledger) (pre : List Delivery) (d : Delivery) : Prop :=
  d.message.isPointer = true →
    (∃ e, l.Carries d e) ∧ ∀ e, l.Carries d e →
      ∀ k ∈ l.accepted, k.message.isSwitch = true →
        (k.sequence < e.sequence → l.Passed pre k)
          ∧ (k.delivery ∈ pre → k.sequence < e.sequence)

/-- A switch is pending and a pointer message that a new switch would
not discard waits behind it. -/
def HoldsBarrier (l : Ledger) : Prop :=
  ∃ d ∈ l.queues.displaySwitch, ∃ b ∈ l.queues.reliable,
    b.message.isPointer = true ∧ b.message.isStaleUpdate = false
      ∧ d.sequence < b.sequence

instance (l : Ledger) : Decidable l.HoldsBarrier :=
  inferInstanceAs (Decidable (∃ _ ∈ l.queues.displaySwitch, _))

/-- No switch is accepted over one that a pointer message waits for. -/
def BarrierGuard (l : Ledger) (m : ControlMsg) : Prop :=
  m.isSwitch = true → ¬ l.HoldsBarrier

instance (l : Ledger) (m : ControlMsg) : Decidable (l.BarrierGuard m) :=
  inferInstanceAs (Decidable (_ → _))

end Ledger

/-- No pointer message crossed a display switch. -/
def Trace.SwitchBarrier (t : Trace) : Prop :=
  EveryAt t.ledger.BarrierAt t.delivered

-- ================================ the tags

variable {q : Queues} {i : Nat} {k : SequencedControl}

namespace Queues

/-- The numbers of the pointer slots. -/
def SlotTagged (q : Queues) (n : Nat) : Prop :=
  (∃ e, q.mouseMove = some e ∧ e.sequence = n)
    ∨ (∃ p, q.touchUpdate = some p ∧ p.sequence = n)
    ∨ (∃ p, q.mouseWheel2D = some p ∧ p.sequence = n)

/-- The numbers of the pointer messages waiting anywhere. -/
def Tagged (q : Queues) (n : Nat) : Prop :=
  (∃ e ∈ q.reliable, e.message.isPointer = true ∧ e.sequence = n)
    ∨ q.SlotTagged n

theorem slotTagged_of_mem_flushed {e : SequencedControl}
    (he : e ∈ q.flushed) : q.SlotTagged e.sequence := by
  rcases mem_flushed.mp he with he | he
  · unfold touchEntries at he
    cases hq : q.touchUpdate with
    | none => rw [hq] at he; cases he
    | some p =>
      rw [hq] at he
      exact Or.inr (Or.inl ⟨p, hq,
        (PendingTouchUpdate.entries_sequence he).symm⟩)
  · unfold wheelEntries at he
    obtain ⟨p, hp, rfl⟩ := List.mem_map.mp he
    exact Or.inr (Or.inr ⟨p, Option.mem_toList.mp hp, rfl⟩)

theorem tagged_of_mem_entries {e : SequencedControl} (he : e ∈ q.entries)
    (hpointer : e.message.isPointer = true)
    (hswitch : ∀ k, q.displaySwitch = some k →
      k.message.isSwitch = true) : q.Tagged e.sequence := by
  rcases mem_entries.mp he with he | he | he | he | he
  · exact Or.inl ⟨e, he, hpointer, rfl⟩
  · exact Or.inr (Or.inl ⟨e, he, rfl⟩)
  · exact Or.inr (slotTagged_of_mem_flushed (mem_flushed.mpr (Or.inl he)))
  · exact Or.inr (slotTagged_of_mem_flushed (mem_flushed.mpr (Or.inr he)))
  · have := hswitch e he
    rw [ControlMsg.isSwitch_eq_false (by simp [hpointer])] at this
    cases this

end Queues

section Effects

variable {q' : Queues} {n : Nat} {m : ControlMsg}

/-- A switch empties the slots and filters the deque. -/
theorem Enqueued.eq_of_isSwitch (h : Enqueued q n m q')
    (hs : m.isSwitch = true) :
    q' = { reliable := q.reliable.filter (!·.message.isStaleUpdate)
           mouseMove := none
           touchUpdate := none
           mouseWheel2D := none
           displaySwitch := some ⟨n, m⟩ } := by
  have hnot : ∀ {P : Prop}, m.isSwitch = false → P := fun h' => by
    rw [hs] at h'; cases h'
  cases h with
  | switch => rfl
  | flag _ _ hs' => exact hnot hs'
  | move hm | touch p hm | wheel p hm | reliable hm =>
    exact hnot (ControlMsg.isSwitch_eq_false (by simp [hm]))
  | start x y hm => subst hm; cases hs

/-- Nothing else touches the switch slot. -/
theorem Enqueued.displaySwitch_eq (h : Enqueued q n m q')
    (hs : m.isSwitch = false) : q'.displaySwitch = q.displaySwitch := by
  cases h with
  | switch hs' => rw [hs'] at hs; cases hs
  | flag | move | start | touch | wheel | reliable => rfl

theorem Enqueued.slotTagged (h : Enqueued q n m q')
    (hi : q'.SlotTagged i) : i = n ∨ q.SlotTagged i := by
  cases h with
  | flag => exact Or.inr hi
  | switch => rcases hi with ⟨_, h, _⟩ | ⟨_, h, _⟩ | ⟨_, h, _⟩ <;> cases h
  | move =>
    rcases hi with ⟨e, he, rfl⟩ | hi
    · cases he; exact Or.inl rfl
    · exact Or.inr (Or.inr hi)
  | start =>
    rcases hi with hi | ⟨_, h, _⟩ | hi
    · exact Or.inr (Or.inl hi)
    · cases h
    · exact Or.inr (Or.inr (Or.inr hi))
  | touch p hm hp =>
    rcases hi with hi | ⟨e, he, rfl⟩ | hi
    · exact Or.inr (Or.inl hi)
    · cases he; exact Or.inl hp
    · exact Or.inr (Or.inr (Or.inr hi))
  | wheel p hm hp =>
    rcases hi with hi | hi | ⟨e, he, rfl⟩
    · exact Or.inr (Or.inl hi)
    · exact Or.inr (Or.inr (Or.inl hi))
    · cases he; exact Or.inl hp
  | reliable =>
    rcases hi with hi | ⟨_, h, _⟩ | ⟨_, h, _⟩
    · exact Or.inr (Or.inl hi)
    · cases h
    · cases h

variable {out : List Delivery}

theorem Popped.slotTagged (h : Popped q out q')
    (hi : q'.SlotTagged i) : q.SlotTagged i := by
  cases h with
  | reliable | switch => exact hi
  | move =>
    rcases hi with ⟨_, h, _⟩ | hi
    · cases h
    · exact Or.inr hi
  | touch pending out rest hq old split hrest =>
    rcases hi with hi | ⟨p, hp, rfl⟩ | hi
    · exact Or.inl hi
    · exact Or.inr (Or.inl ⟨pending, hq, (hrest p hp).symm⟩)
    · exact Or.inr (Or.inr hi)
  | wheel =>
    rcases hi with hi | hi | ⟨_, h, _⟩
    · exact Or.inl hi
    · exact Or.inr (Or.inl hi)
    · cases h

theorem Popped.reliable_sublist
    (h : Popped q out q') : q'.reliable.Sublist q.reliable := by
  cases h with
  | reliable e rest hq => rw [hq]; exact List.sublist_cons_self ..
  | move | touch | wheel | switch => exact .refl _

theorem Popped.tagged (h : Popped q out q')
    (hi : q'.Tagged i) : q.Tagged i := by
  rcases hi with ⟨e, he, hpointer, rfl⟩ | hi
  · exact Or.inl ⟨e, h.reliable_sublist.subset he, hpointer, rfl⟩
  · exact Or.inr (h.slotTagged hi)

/-- A turn hands the pending switch out or leaves it. -/
theorem Popped.displaySwitch_kept (h : Popped q out q')
    (hk : q.displaySwitch = some k) :
    q'.displaySwitch = some k ∨ k.delivery ∈ out := by
  cases h with
  | reliable | move | touch | wheel => exact Or.inl hk
  | switch e he =>
    right
    rw [Option.some.inj (hk.symm.trans he)]
    exact List.mem_singleton.mpr rfl

theorem Popped.displaySwitch_of (h : Popped q out q')
    (hk : q'.displaySwitch = some k) : q.displaySwitch = some k := by
  cases h with
  | reliable | move | touch | wheel => exact hk
  | switch => cases hk

/-- What goes out was an oldest head. -/
theorem Popped.out_oldest (h : Popped q out q') {d : Delivery} (hd : d ∈ out) :
    ∃ e ∈ q.entries, d = e.delivery ∧ q.Oldest e.sequence := by
  obtain ⟨e, he, rfl⟩ := h.mem_out hd
  refine ⟨e, he, rfl, ?_⟩
  cases h with
  | reliable e' rest hq old =>
    rwa [SequencedControl.delivery_inj (List.mem_singleton.mp hd)]
  | move e' hq old =>
    rwa [SequencedControl.delivery_inj (List.mem_singleton.mp hd)]
  | touch pending es rest hq old split =>
    obtain ⟨x, hx, hxe⟩ := List.mem_map.mp hd
    cases SequencedControl.delivery_inj hxe
    have hx' : e ∈ pending.entries := by
      rw [← split]; exact List.mem_append_left _ hx
    rwa [PendingTouchUpdate.entries_sequence hx']
  | wheel pending hq old =>
    rwa [SequencedControl.delivery_inj (List.mem_singleton.mp hd)]
  | switch e' hq old =>
    rwa [SequencedControl.delivery_inj (List.mem_singleton.mp hd)]

end Effects

-- =========================== the invariant

namespace Ledger

/-- What every rule preserves under `BarrierGuard`. A pending switch
splits what waits: the slots, and the deque from some point on, are
behind it. -/
structure BarrierInv (l : Ledger) : Prop where
  wellKept : l.WellKept
  merged_self : ∀ n, n ∈ l.merged n
  merged_le : ∀ n, ∀ i ∈ l.merged n, i ≤ n
  carried : ∀ x ∈ l.queues.entries, x.message.isPointer = true →
    ∃ e, l.Carries x.delivery e
  switch_kept : ∀ k ∈ l.accepted, k.message.isSwitch = true →
    l.Passed l.delivered k
      ∨ ∃ s, l.queues.displaySwitch = some s ∧ k.sequence ≤ s.sequence
  /-- What is accepted after a switch waits for it or a later one. -/
  ahead : ∀ n, l.queues.Tagged n → ∀ i ∈ l.merged n,
    ∀ k ∈ l.accepted, k.message.isSwitch = true → k.sequence < i →
      l.Passed l.delivered k
        ∨ ∃ s, l.queues.displaySwitch = some s
            ∧ k.sequence ≤ s.sequence ∧ s.sequence < i
  /-- What is still waiting was accepted after the switches sent. -/
  behind : ∀ n, l.queues.Tagged n → ∀ i ∈ l.merged n,
    ∀ k ∈ l.accepted, k.message.isSwitch = true →
      k.delivery ∈ l.delivered → k.sequence < i
  slots_behind : ∀ s, l.queues.displaySwitch = some s →
    ∀ n, l.queues.SlotTagged n → ∀ i ∈ l.merged n, s.sequence < i
  deque_split : ∀ s, l.queues.displaySwitch = some s →
    ∀ x ∈ l.queues.reliable, x.sequence < s.sequence
      ∨ ∀ i ∈ l.merged x.sequence, s.sequence < i
  deque_sorted : ∀ s, l.queues.displaySwitch = some s →
    l.queues.reliable.Pairwise fun a b =>
      b.sequence < s.sequence → a.sequence < s.sequence
  log : EveryAt l.BarrierAt l.delivered

variable {l l' : Ledger}

theorem barrierInv_start (gates : ControlInbox) :
    (Trace.start gates).ledger.BarrierInv where
  wellKept := wellKept_start gates
  merged_self := fun n => List.mem_singleton.mpr rfl
  merged_le := fun n i hi => Nat.le_of_eq (List.mem_singleton.mp hi)
  carried := by intro x hx; cases hx
  switch_kept := by intro k hk; cases hk
  ahead := by intro n _ i _ k hk; cases hk
  behind := by intro n _ i _ k hk; cases hk
  slots_behind := by intro s hs; cases hs
  deque_split := by intro s hs; cases hs
  deque_sorted := by intro s hs; cases hs
  log := everyAt_nil _

-- ----------------------------- the numbers

variable {n : Nat} {m : ControlMsg} {merged : Nat → List Nat} {q' : Queues}
variable {s : SequencedControl}

theorem WellKept.tagged_lt (w : l.WellKept)
    (h : l.queues.Tagged n) : n < l.next := by
  rcases h with ⟨e, he, -, rfl⟩ | ⟨e, he, rfl⟩ | ⟨p, hp, rfl⟩ | ⟨p, hp, rfl⟩
  · exact w.queued_lt e (Queues.mem_entries.mpr (Or.inl he))
  · exact w.queued_lt e (Queues.mem_entries.mpr (Or.inr (Or.inl he)))
  · exact w.touch_lt p hp
  · refine w.queued_lt p.entry (Queues.mem_entries.mpr
      (Or.inr (Or.inr (Or.inr (Or.inl ?_)))))
    simp [Queues.wheelEntries, hp]

theorem foldsInto_slotTagged {old : Nat}
    (h : foldsInto q m = some old) : q.SlotTagged old := by
  unfold foldsInto at h
  split at h
  · exact Or.inr (Or.inl (Option.map_eq_some_iff.mp h))
  · split at h
    · exact Or.inr (Or.inr (Option.map_eq_some_iff.mp h))
    · cases h

theorem merge_of_ne (hi : i ≠ n) : merge merged q n m i = merged i :=
  if_neg hi

/-- What the new number stands for: itself, and what the slot it folded
into stood for. -/
theorem mem_merge (hi : i ∈ merge merged q n m n) :
    i = n ∨ ∃ old, q.SlotTagged old ∧ i ∈ merged old := by
  unfold merge at hi
  rw [if_pos rfl] at hi
  cases hold : foldsInto q m with
  | none => rw [hold] at hi; exact Or.inl (List.mem_singleton.mp hi)
  | some old =>
    rw [hold] at hi
    rcases List.mem_append.mp hi with hi | hi
    · exact Or.inr ⟨old, foldsInto_slotTagged hold, hi⟩
    · exact Or.inl (List.mem_singleton.mp hi)

theorem self_mem_merge : n ∈ merge merged q n m n := by
  unfold merge
  rw [if_pos rfl]
  cases foldsInto q m <;> simp

/-- The old slot's messages ride on in the new number. -/
theorem merge_folds {old : Nat} (hold : foldsInto q m = some old)
    (hi : i ∈ merged old) : i ∈ merge merged q n m n := by
  unfold merge
  rw [if_pos rfl, hold]
  exact List.mem_append_left _ hi

-- ------------------------- accept: the log

/-- A new message changes nothing about what was numbered before it. -/
private theorem carries_accepting {d : Delivery}
    (hd : ∀ n, d.sequence = some n → n < l.next)
    (hle : ∀ n, ∀ i ∈ l.merged n, i ≤ n) (e : SequencedControl) :
    (l.accepting m q').Carries d e ↔ l.Carries d e := by
  constructor
  · rintro ⟨he, hshape, n, hn, hi⟩
    have hlt := hd n hn
    rw [show (l.accepting m q').merged n = l.merged n from
      merge_of_ne (Nat.ne_of_lt hlt)] at hi
    rcases List.mem_append.mp he with he | he
    · exact ⟨he, hshape, n, hn, hi⟩
    · rw [List.mem_singleton.mp he] at hi
      exact absurd (hle n _ hi) (Nat.not_le.mpr hlt)
  · rintro ⟨he, hshape, n, hn, hi⟩
    refine ⟨List.mem_append_left _ he, hshape, n, hn, ?_⟩
    rwa [show (l.accepting m q').merged n = l.merged n from
      merge_of_ne (Nat.ne_of_lt (hd n hn))]

private theorem Passed.accepting {log : List Delivery}
    (h : l.Passed log k) : (l.accepting m q').Passed log k := by
  obtain ⟨k', hk', hrest⟩ := h
  exact ⟨k', List.mem_append_left _ hk', hrest⟩

private theorem BarrierInv.log_accepting (h : l.BarrierInv) :
    EveryAt (l.accepting m q').BarrierAt l.delivered := by
  refine h.log.mono fun pre d hpre hd hat hpointer => ?_
  have hlt := h.wellKept.delivered_lt d hd
  obtain ⟨⟨e, he⟩, hall⟩ := hat hpointer
  refine ⟨⟨e, (carries_accepting hlt h.merged_le e).mpr he⟩,
    fun e he' k hk hswitch => ?_⟩
  have he := (carries_accepting hlt h.merged_le e).mp he'
  obtain ⟨n, hn, hi⟩ := he.2.2
  have hen : e.sequence < l.next :=
    Nat.lt_of_le_of_lt (h.merged_le n _ hi) (hlt n hn)
  rcases List.mem_append.mp hk with hk | hk
  · obtain ⟨h₁, h₂⟩ := hall e he k hk hswitch
    exact ⟨fun hke => (h₁ hke).accepting, h₂⟩
  · -- the new message is newer than everything delivered
    rw [List.mem_singleton.mp hk]
    refine ⟨fun hke => absurd hen (Nat.not_lt_of_gt hke), fun hout => ?_⟩
    exact absurd (h.wellKept.delivered_lt _ (hpre _ hout) _ rfl)
      (Nat.lt_irrefl _)

private theorem BarrierInv.carried_accepting (h : l.BarrierInv)
    (hq : Enqueued l.queues l.next m q') :
    ∀ x ∈ q'.entries, x.message.isPointer = true →
      ∃ e, (l.accepting m q').Carries x.delivery e := by
  intro x hx hpointer
  rcases hq.mem_entries hx with hx | ⟨hxn, hshape | ⟨hm, old, hold, hshape⟩⟩
  · obtain ⟨e, he⟩ := h.carried x hx hpointer
    refine ⟨e, (carries_accepting ?_ h.merged_le e).mpr he⟩
    intro n hn
    cases hn
    exact h.wellKept.queued_lt x hx
  · refine ⟨⟨l.next, m⟩, List.mem_append_right _
      (List.mem_singleton.mpr rfl), hshape, x.sequence, rfl, ?_⟩
    rw [hxn]
    exact self_mem_merge
  · -- an older half of the touch slot, renumbered by the fold
    obtain ⟨e, he, heshape, n, hn, hi⟩ := h.carried old
      (Queues.mem_entries.mpr (Or.inr (Or.inr (Or.inl hold))))
      (Queues.kind_of_mem_touchEntries hold).2.2
    cases hn
    refine ⟨e, List.mem_append_left _ he, heshape.trans hshape,
      x.sequence, rfl, ?_⟩
    rw [hxn]
    refine merge_folds ?_ hi
    unfold Queues.touchEntries at hold
    cases ht : l.queues.touchUpdate with
    | none => rw [ht] at hold; cases hold
    | some p =>
      rw [ht] at hold
      rw [foldsInto, if_pos hm, ht,
        PendingTouchUpdate.entries_sequence hold]
      rfl

-- ---------------------- accept: the queues

section Accept

/-- What a slot stands for after accepting `m`: the new message, and
what a slot stood for. -/
private theorem mem_merged_slot (w : l.WellKept)
    (hq : Enqueued l.queues l.next m q') (hn : q'.SlotTagged n)
    (hi : i ∈ (l.accepting m q').merged n) :
    i = l.next ∨ ∃ n', l.queues.SlotTagged n' ∧ i ∈ l.merged n' := by
  rcases hq.slotTagged hn with rfl | hn
  · exact mem_merge hi
  · have hlt := w.tagged_lt (Or.inr hn)
    rw [show (l.accepting m q').merged n = l.merged n from
      merge_of_ne (Nat.ne_of_lt hlt)] at hi
    exact Or.inr ⟨n, hn, hi⟩

/-- The same of every pointer number, when `m` is not a switch. -/
private theorem mem_merged_tagged (w : l.WellKept)
    (hq : Enqueued l.queues l.next m q') (hs : m.isSwitch = false)
    (hn : q'.Tagged n) (hi : i ∈ (l.accepting m q').merged n) :
    i = l.next ∨ ∃ n', l.queues.Tagged n' ∧ i ∈ l.merged n' := by
  have hold : l.queues.Tagged n →
      i = l.next ∨ ∃ n', l.queues.Tagged n' ∧ i ∈ l.merged n' := by
    intro hn
    rw [show (l.accepting m q').merged n = l.merged n from
      merge_of_ne (Nat.ne_of_lt (w.tagged_lt hn))] at hi
    exact Or.inr ⟨n, hn, hi⟩
  rcases hn with ⟨e, he, hpointer, rfl⟩ | hn
  · obtain ⟨es, hes, hnew⟩ := hq.reliable_append hs
    rw [hes] at he
    rcases List.mem_append.mp he with he | he
    · exact hold (Or.inl ⟨e, he, hpointer, rfl⟩)
    · rcases hnew e he with rfl | he
      · exact (mem_merge hi).imp_right
          fun ⟨n', hn', hi'⟩ => ⟨n', Or.inr hn', hi'⟩
      · exact hold (Or.inr (Queues.slotTagged_of_mem_flushed he))
  · exact (mem_merged_slot w hq hn hi).imp_right
      fun ⟨n', hn', hi'⟩ => ⟨n', Or.inr hn', hi'⟩

private theorem BarrierInv.merged_le_accepting (h : l.BarrierInv) :
    ∀ n, ∀ i ∈ (l.accepting m q').merged n, i ≤ n := by
  intro n i hi
  by_cases hn : n = l.next
  · subst hn
    rcases mem_merge hi with rfl | ⟨old, hold, hi⟩
    · exact Nat.le_refl _
    · exact Nat.le_trans (h.merged_le old i hi)
        (Nat.le_of_lt (h.wellKept.tagged_lt (Or.inr hold)))
  · rw [show (l.accepting m q').merged n = l.merged n from
      merge_of_ne hn] at hi
    exact h.merged_le n i hi

private theorem BarrierInv.merged_self_accepting (h : l.BarrierInv) :
    ∀ n, n ∈ (l.accepting m q').merged n := by
  intro n
  by_cases hn : n = l.next
  · subst hn; exact self_mem_merge
  · rw [show (l.accepting m q').merged n = l.merged n from merge_of_ne hn]
    exact h.merged_self n

private theorem BarrierInv.switch_lt (h : l.BarrierInv)
    (hs : l.queues.displaySwitch = some s) : s.sequence < l.next :=
  h.wellKept.accepted_lt s (h.wellKept.switch_accepted s hs)

/-- Any other message lines up behind the pending switch. -/
private theorem BarrierInv.accept_other (h : l.BarrierInv)
    (hq : Enqueued l.queues l.next m q') (hs : m.isSwitch = false) :
    (l.accepting m q').BarrierInv := by
  have hslot : q'.displaySwitch = l.queues.displaySwitch :=
    hq.displaySwitch_eq hs
  have hacc : ∀ k ∈ (l.accepting m q').accepted,
      k.message.isSwitch = true → k ∈ l.accepted := by
    intro k hk hswitch
    rcases List.mem_append.mp hk with hk | hk
    · exact hk
    · rw [List.mem_singleton.mp hk, hs] at hswitch; cases hswitch
  obtain ⟨es, hes, hnew⟩ := hq.reliable_append hs
  -- what was appended to the deque is behind every pending switch
  have hbehind : ∀ s, l.queues.displaySwitch = some s → ∀ x ∈ es,
      ∀ i ∈ (l.accepting m q').merged x.sequence, s.sequence < i := by
    intro s hs' x hx i hi
    have hslots : ∀ n', l.queues.SlotTagged n' → i ∈ l.merged n' →
        s.sequence < i := fun n' hn' => h.slots_behind s hs' n' hn' i
    rcases hnew x hx with rfl | hx
    · rcases mem_merge hi with rfl | ⟨n', hn', hi⟩
      · exact h.switch_lt hs'
      · exact hslots n' hn' hi
    · have htag := Queues.slotTagged_of_mem_flushed hx
      rw [show (l.accepting m q').merged x.sequence
        = l.merged x.sequence from merge_of_ne
          (Nat.ne_of_lt (h.wellKept.tagged_lt (Or.inr htag)))] at hi
      exact hslots _ htag hi
  refine
    { wellKept := h.wellKept.accept hq
      merged_self := h.merged_self_accepting
      merged_le := h.merged_le_accepting
      carried := h.carried_accepting hq
      log := h.log_accepting
      switch_kept := ?_, ahead := ?_, behind := ?_, slots_behind := ?_
      deque_split := ?_, deque_sorted := ?_ }
  · intro k hk hswitch
    rw [show (l.accepting m q').queues.displaySwitch = _ from hslot]
    exact (h.switch_kept k (hacc k hk hswitch) hswitch).imp_left
      Passed.accepting
  · intro n hn i hi k hk hswitch hki
    rw [show (l.accepting m q').queues.displaySwitch = _ from hslot]
    have hk' := hacc k hk hswitch
    rcases mem_merged_tagged h.wellKept hq hs hn hi with
      rfl | ⟨n', hn', hi⟩
    · rcases h.switch_kept k hk' hswitch with hp | ⟨s, hs', hle⟩
      · exact Or.inl hp.accepting
      · exact Or.inr ⟨s, hs', hle, h.switch_lt hs'⟩
    · exact (h.ahead n' hn' i hi k hk' hswitch hki).imp_left
        Passed.accepting
  · intro n hn i hi k hk hswitch hout
    have hk' := hacc k hk hswitch
    rcases mem_merged_tagged h.wellKept hq hs hn hi with
      rfl | ⟨n', hn', hi⟩
    · exact h.wellKept.accepted_lt k hk'
    · exact h.behind n' hn' i hi k hk' hswitch hout
  · intro s hs' n hn i hi
    replace hs' := hslot.symm.trans hs'
    rcases mem_merged_slot h.wellKept hq hn hi with rfl | ⟨n', hn', hi⟩
    · exact h.switch_lt hs'
    · exact h.slots_behind s hs' n' hn' i hi
  · intro s hs' x hx
    replace hs' := hslot.symm.trans hs'
    rcases List.mem_append.mp (hes ▸ hx) with hx | hx
    · have hlt := h.wellKept.queued_lt x
        (Queues.mem_entries.mpr (Or.inl hx))
      rw [show (l.accepting m q').merged x.sequence
        = l.merged x.sequence from merge_of_ne (Nat.ne_of_lt hlt)]
      exact h.deque_split s hs' x hx
    · exact Or.inr (hbehind s hs' x hx)
  · intro s hs'
    replace hs' := hslot.symm.trans hs'
    have hnot : ∀ x ∈ es, ¬ x.sequence < s.sequence := fun x hx hlt =>
      Nat.lt_asymm hlt (hbehind s hs' x hx _ (h.merged_self_accepting _))
    rw [show (l.accepting m q').queues.reliable = _ from hes,
      List.pairwise_append]
    refine ⟨h.deque_sorted s hs', ?_, fun a _ b hb hlt =>
      absurd hlt (hnot b hb)⟩
    exact List.pairwise_of_forall_mem_list fun a _ b hb hlt =>
      absurd hlt (hnot b hb)

/-- A switch accepted under the guard is ordered behind all that is left
waiting, none of which waits for the switch it replaces. -/
private theorem BarrierInv.accept_switch (h : l.BarrierInv)
    (hq : Enqueued l.queues l.next m q') (hs : m.isSwitch = true)
    (hg : ¬ l.HoldsBarrier) : (l.accepting m q').BarrierInv := by
  have hq' := hq.eq_of_isSwitch hs
  have hleft : ∀ n, q'.Tagged n → ∃ e ∈ l.queues.reliable,
      e.message.isPointer = true ∧ e.message.isStaleUpdate = false
        ∧ e.sequence = n := by
    rw [hq']
    rintro n (⟨e, he, hpointer, rfl⟩ | ⟨_, h, _⟩ | ⟨_, h, _⟩ | ⟨_, h, _⟩)
    · obtain ⟨he, hstale⟩ := List.mem_filter.mp he
      exact ⟨e, he, hpointer, by simpa using hstale, rfl⟩
    all_goals cases h
  have hmerged : ∀ n, q'.Tagged n →
      (l.accepting m q').merged n = l.merged n ∧ n < l.next := by
    intro n hn
    obtain ⟨e, he, hpointer, -, rfl⟩ := hleft n hn
    have hlt := h.wellKept.tagged_lt (Or.inl ⟨e, he, hpointer, rfl⟩)
    exact ⟨merge_of_ne (Nat.ne_of_lt hlt), hlt⟩
  have hmem : ∀ x ∈ q'.reliable, x.sequence < l.next := by
    intro x hx
    rw [hq'] at hx
    exact h.wellKept.queued_lt x (Queues.mem_entries.mpr
      (Or.inl (List.mem_of_mem_filter hx)))
  have hnew : (l.accepting m q').queues.displaySwitch
      = some ⟨l.next, m⟩ := by
    show q'.displaySwitch = _
    rw [hq']
  refine
    { wellKept := h.wellKept.accept hq
      merged_self := h.merged_self_accepting
      merged_le := h.merged_le_accepting
      carried := h.carried_accepting hq
      log := h.log_accepting
      switch_kept := ?_, ahead := ?_, behind := ?_, slots_behind := ?_
      deque_split := ?_, deque_sorted := ?_ }
  · intro k hk _
    refine Or.inr ⟨_, hnew, ?_⟩
    exact Nat.le_of_lt_succ ((h.wellKept.accept hq).accepted_lt k hk)
  · intro n hn i hi k hk hswitch hki
    rw [(hmerged n hn).1] at hi
    obtain ⟨e, he, hpointer, hstale, rfl⟩ := hleft n hn
    have hie := h.merged_le _ i hi
    rcases List.mem_append.mp hk with hk | hk
    · rcases h.ahead _ (Or.inl ⟨e, he, hpointer, rfl⟩) i hi k hk hswitch
        hki with hp | ⟨s, hs', -, hsi⟩
      · exact Or.inl hp.accepting
      · exact absurd ⟨s, hs', e, he, hpointer, hstale,
          Nat.lt_of_lt_of_le hsi hie⟩ hg
    · rw [List.mem_singleton.mp hk] at hki
      have := (hmerged _ hn).2
      dsimp only at hki
      omega
  · intro n hn i hi k hk hswitch hout
    rw [(hmerged n hn).1] at hi
    obtain ⟨e, he, hpointer, -, rfl⟩ := hleft n hn
    rcases List.mem_append.mp hk with hk | hk
    · exact h.behind _ (Or.inl ⟨e, he, hpointer, rfl⟩) i hi k hk hswitch
        hout
    · rw [List.mem_singleton.mp hk] at hout
      exact absurd (h.wellKept.delivered_lt _ hout _ rfl)
        (Nat.lt_irrefl _)
  · intro s _ n hn
    change q'.SlotTagged n at hn
    rw [hq'] at hn
    rcases hn with ⟨_, h, _⟩ | ⟨_, h, _⟩ | ⟨_, h, _⟩ <;> cases h
  · intro s hs' x hx
    rw [← Option.some.inj (hnew.symm.trans hs')]
    exact Or.inl (hmem x hx)
  · intro s hs'
    rw [← Option.some.inj (hnew.symm.trans hs')]
    exact List.pairwise_of_forall_mem_list fun a ha _ _ _ => hmem a ha

end Accept

-- ------------------------------------- pop

section Pop

variable {out : List Delivery}

private theorem Passed.mono {log log' : List Delivery} (h : l.Passed log k)
    (hsub : ∀ d ∈ log, d ∈ log') : l.Passed log' k := by
  obtain ⟨k', hk', hswitch, hle, hout⟩ := h
  exact ⟨k', hk', hswitch, hle, hsub _ hout⟩

/-- A pending switch that goes out is passed. -/
private theorem BarrierInv.slot_popping (h : l.BarrierInv)
    (hq : Popped l.queues out q') (hs : l.queues.displaySwitch = some s)
    (hle : k.sequence ≤ s.sequence) :
    q'.displaySwitch = some s
      ∨ l.Passed (l.delivered ++ out) k := by
  rcases hq.displaySwitch_kept hs with hkept | hout
  · exact Or.inl hkept
  · exact Or.inr ⟨s, h.wellKept.switch_accepted s hs,
      h.wellKept.switch_kind s hs, hle, List.mem_append_right _ hout⟩

/-- When a switch is the oldest head, everything still waiting is behind
it. -/
private theorem BarrierInv.behind_popped (h : l.BarrierInv)
    (hs : l.queues.displaySwitch = some s) (old : l.queues.Oldest s.sequence)
    (hn : l.queues.Tagged n) (hi : i ∈ l.merged n) : s.sequence < i := by
  rcases hn with ⟨e, he, -, rfl⟩ | hn
  · rcases h.deque_split s hs e he with hlt | hall
    · -- the head of the deque would be older than the oldest
      exfalso
      have hsorted := h.deque_sorted s hs
      cases hr : l.queues.reliable with
      | nil => rw [hr] at he; cases he
      | cons head rest =>
        have hhead := old.le_reliable hr
        rw [hr] at he hsorted
        rcases List.mem_cons.mp he with rfl | he
        · omega
        · have := (List.pairwise_cons.mp hsorted).1 e he hlt
          omega
    · exact hall i hi
  · exact h.slots_behind s hs n hn i hi

/-- A turn of the drain loop keeps both sides of the barrier. -/
private theorem BarrierInv.pop (h : l.BarrierInv)
    (hq : Popped l.queues out q') : (l.popping out q').BarrierInv := by
  have hsub : ∀ d ∈ l.delivered, d ∈ l.delivered ++ out :=
    fun d hd => List.mem_append_left _ hd
  refine
    { wellKept := h.wellKept.pop hq
      merged_self := h.merged_self
      merged_le := h.merged_le
      carried := fun x hx => h.carried x (hq.mem_entries hx)
      switch_kept := ?_, ahead := ?_, behind := ?_
      slots_behind := fun s hs n hn => h.slots_behind s
        (hq.displaySwitch_of hs) n (hq.slotTagged hn)
      deque_split := fun s hs x hx => h.deque_split s
        (hq.displaySwitch_of hs) x (hq.reliable_sublist.subset hx)
      deque_sorted := fun s hs => (h.deque_sorted s
        (hq.displaySwitch_of hs)).sublist hq.reliable_sublist
      log := h.log.append ?_ }
  · intro k hk hswitch
    rcases h.switch_kept k hk hswitch with hp | ⟨s, hs, hle⟩
    · exact Or.inl (hp.mono hsub)
    · exact (h.slot_popping hq hs hle).symm.imp_right
        fun hkept => ⟨s, hkept, hle⟩
  · intro n hn i hi k hk hswitch hki
    rcases h.ahead n (hq.tagged hn) i hi k hk hswitch hki with
      hp | ⟨s, hs, hle, hsi⟩
    · exact Or.inl (hp.mono hsub)
    · exact (h.slot_popping hq hs hle).symm.imp_right
        fun hkept => ⟨s, hkept, hle, hsi⟩
  · intro n hn i hi k hk hswitch hout
    rcases List.mem_append.mp hout with hout | hout
    · exact h.behind n (hq.tagged hn) i hi k hk hswitch hout
    · obtain ⟨s, hs, hks, -, -, old⟩ :=
        h.wellKept.popped_switch hq hout hswitch
      rw [SequencedControl.delivery_inj hks]
      exact h.behind_popped hs old (hq.tagged hn) hi
  · intro d hd pre hpre hpointer
    obtain ⟨x, hx, rfl, old⟩ := hq.out_oldest hd
    have htag := Queues.tagged_of_mem_entries hx hpointer
      h.wellKept.switch_kind
    refine ⟨h.carried x hx hpointer, fun e he k hk hswitch => ?_⟩
    obtain ⟨-, -, n, hn, hi⟩ := he
    cases hn
    constructor
    · intro hke
      rcases h.ahead _ htag _ hi k hk hswitch hke with
        hp | ⟨s, hs, -, hse⟩
      · exact hp.mono fun d hd => List.mem_append_left _ hd
      · -- the pending switch would be older than the oldest head
        have := old.le_displaySwitch hs
        have := h.merged_le _ _ hi
        omega
    · intro hout
      rcases List.mem_append.mp hout with hout | hout
      · exact h.behind _ htag _ hi k hk hswitch hout
      · obtain ⟨s, hs, hks, hone, -, -⟩ :=
          h.wellKept.popped_switch hq (hpre _ hout) hswitch
        rw [hone] at hd
        have hxs := SequencedControl.delivery_inj (List.mem_singleton.mp hd)
        have hkind := h.wellKept.switch_kind s hs
        rw [← hxs, ControlMsg.isSwitch_eq_false
          (by simpa using Or.inr (Or.inl hpointer))] at hkind
        cases hkind

end Pop

/-- Every rule preserves the invariant. -/
theorem Step.barrierInv (h : Step BarrierGuard l l')
    (hinv : l.BarrierInv) : l'.BarrierInv := by
  have hkept := h.wellKept hinv.wellKept
  cases h with
  | accept m q' hn hg hq =>
    cases hs : m.isSwitch with
    | true => exact hinv.accept_switch hq hs (hg hs)
    | false => exact hinv.accept_other hq hs
  | skip hn => exact { hinv with wellKept := hkept }
  | pop out q' hq => exact hinv.pop hq
  | flag d hd =>
    have hsub : ∀ x ∈ l.delivered, x ∈ l.delivered ++ [d] :=
      fun x hx => List.mem_append_left _ hx
    refine { hinv with
      wellKept := hkept
      switch_kept := fun k hk hswitch =>
        (hinv.switch_kept k hk hswitch).imp_left (·.mono hsub)
      ahead := fun n hn i hi k hk hswitch hki =>
        (hinv.ahead n hn i hi k hk hswitch hki).imp_left (·.mono hsub)
      behind := fun n hn i hi k hk hswitch hout => ?_
      log := everyAt_snoc.mpr ⟨hinv.log, fun hpointer => ?_⟩ }
    · rcases List.mem_append.mp hout with hout | hout
      · exact hinv.behind n hn i hi k hk hswitch hout
      · have hflag := hd.1
        rw [← List.mem_singleton.mp hout] at hflag; cases hflag
    · rw [hd.2.1] at hpointer; cases hpointer

end Ledger

-- ============================= the results

/-- No pointer message crosses a display switch, in every run that
accepts no switch over one that a pointer message waits for. -/
theorem switch_barrier (gates : ControlInbox) (ops : List Op)
    (h : Meets Trace.step
      (Trace.Guarded fun t m => t.ledger.BarrierGuard m)
      (Trace.start gates) ops) :
    (exec Trace.step (Trace.start gates) ops).SwitchBarrier :=
  (reflTransGen_invariant (fun _ _ h => h.barrierInv)
    (Trace.simulates h) (Ledger.barrierInv_start gates)).log

/-- Two switches, each drained before the next, with a merged wheel
delta and a press on either side. -/
theorem switch_barrier_two :
    (exec Trace.step (Trace.start {})
      [.enqueue (.mouseMove 1 1), .enqueue (.displaySwitch 1 1),
        .enqueue (.mouseWheel2D 0 3), .enqueue (.mouseWheel2D 0 4),
        .enqueue (.mouseEvent 5 5 1 true), .takeBatch 2, .takeBatch 8,
        .enqueue (.displaySwitch 2 2), .enqueue (.mouseMove 6 6),
        .takeBatch 8]).SwitchBarrier :=
  switch_barrier {} _ (by decide)

/-- Switch, press, switch, drain: the second switch replaces the first
under the queued press, which goes out before any switch. -/
theorem switch_replaced :
    let ops : List Op :=
      [.enqueue (.displaySwitch 1 1), .enqueue (.mouseEvent 5 5 1 true),
        .enqueue (.displaySwitch 2 2), .takeBatch 8]
    (exec Trace.step (Trace.start {}) ops).accepted
        = [⟨1, .displaySwitch 1 1⟩, ⟨2, .mouseEvent 5 5 1 true⟩,
          ⟨3, .displaySwitch 2 2⟩]
      ∧ (exec Trace.step (Trace.start {}) ops).delivered
        = [⟨some 2, .mouseEvent 5 5 1 true⟩, ⟨some 3, .displaySwitch 2 2⟩]
      ∧ ¬ (exec Trace.step (Trace.start {}) ops).SwitchBarrier := by
  refine ⟨by decide, by decide, fun h => ?_⟩
  obtain ⟨-, hall⟩ := h [] ⟨some 2, .mouseEvent 5 5 1 true⟩
    [⟨some 3, .displaySwitch 2 2⟩] (by decide) rfl
  obtain ⟨hpassed, -⟩ := hall ⟨2, .mouseEvent 5 5 1 true⟩
    ⟨by decide, rfl, 2, rfl, by decide⟩ ⟨1, .displaySwitch 1 1⟩
    (by decide) rfl
  obtain ⟨_, _, _, _, hout⟩ := hpassed (by decide)
  cases hout

end RemoteDesk.Inbox
