/-
Folding loses no motion.

# What is owed

A run owes the session the pan and the wheel deltas it accepted, between
the messages they were accepted between. `Motion` keeps that account of
the pans next to the run: every accepted delta is added, every touch
marker closes a line, and a touch start first takes back what still
waits in the slot, because a delta of an abandoned stream must not cross
the start. For the wheel the account is that of the accepted messages,
with the reliable ones as its markers; a touch start is left out of
them, it may go out on either side of a wheel delta that waits.

# The result

`motion_conserved`: once an inbox is drained, what it delivered has the
account it owed. The guard `Conserves` excludes saturated sums, display
switches and scales that fold to zero.
-/
import RemoteDesk.Inbox.TouchFolds
import RemoteDesk.Lib.Accounts

namespace RemoteDesk.Inbox

open Lib

-- ================================ readings

/-- Pans between the markers of the touch stream. -/
def panReading : ControlMsg → Reading (Int × Int)
  | .touchPanUpdate x y => .amount (x, y)
  | m => if m.isTouchStart || m.isTouchEnd then .marker else .silent

/-- Wheel deltas between the reliable messages. -/
def wheelReading : ControlMsg → Reading (Int × Int)
  | .mouseWheel2D x y => .amount (x, y)
  | m => if m.isReliable && !m.isTouchStart then .marker else .silent

abbrev MotionAccount := Account ControlMsg (Int × Int)

/-- The account with what a slot holds on its running line. -/
def holding (a : MotionAccount) (slot : Option (Int × Int)) :
    MotionAccount :=
  slot.elim a a.add

/-- What is owed once `m` is accepted by `p`. -/
def owing (p : Pointers) (owed : MotionAccount) (m : ControlMsg) :
    MotionAccount :=
  Account.post panReading
    (if m.isTouchStart then holding owed (p.pan.map Neg.neg) else owed) m

theorem owing_start (p : Pointers) (owed : MotionAccount) (x y : Int) :
    owing p owed (.touchPanStart x y)
      = (holding owed (p.pan.map Neg.neg)).close (.touchPanStart x y) :=
  rfl

-- =================================== guard

def FitsI32 (v : Int) : Prop := i32Min ≤ v ∧ v ≤ i32Max

instance (v : Int) : Decidable (FitsI32 v) :=
  inferInstanceAs (Decidable (_ ∧ _))

/-- The sum of what waits and what joins it is not clamped. -/
def JoinFits (slot : Option (Int × Int)) (x y : Int) : Prop :=
  ∀ previous ∈ slot, FitsI32 (previous.1 + x) ∧ FitsI32 (previous.2 + y)

instance (slot : Option (Int × Int)) (x y : Int) :
    Decidable (JoinFits slot x y) :=
  match slot with
  | none => isTrue (by simp [JoinFits])
  | some previous =>
    decidable_of_iff
      (FitsI32 (previous.1 + x) ∧ FitsI32 (previous.2 + y))
      (by simp [JoinFits])

/-- No sum saturates, no scale folds to zero, no display switch. -/
def Conserves (p : Pointers) (m : ControlMsg) : Prop :=
  ScaleSurvives p m ∧ m.isSwitch = false
    ∧ match m with
      | .touchPanUpdate x y => JoinFits p.pan x y
      | .mouseWheel2D x y => JoinFits p.wheel x y
      | _ => True

def motionFits (p : Pointers) : ControlMsg → Bool
  | .touchPanUpdate x y => JoinFits p.pan x y
  | .mouseWheel2D x y => JoinFits p.wheel x y
  | _ => true

instance (p : Pointers) (m : ControlMsg) : Decidable (Conserves p m) :=
  decidable_of_iff
    (ScaleSurvives p m ∧ m.isSwitch = false ∧ motionFits p m = true) (by
      cases m <;> simp [Conserves, motionFits])

theorem i32SaturatingAdd_of_fits {a b : Int} (h : FitsI32 (a + b)) :
    i32SaturatingAdd a b = a + b := by
  unfold i32SaturatingAdd
  rw [min_eq_right h.2, max_eq_right h.1]

theorem joined_of_fits {slot : Option (Int × Int)} {x y : Int}
    (h : JoinFits slot x y) :
    slot.elim (x, y) (fun previous =>
        (i32SaturatingAdd previous.1 x, i32SaturatingAdd previous.2 y))
      = slot.elim (x, y) (fun previous => previous + (x, y)) := by
  cases slot with
  | none => rfl
  | some previous =>
    obtain ⟨hx, hy⟩ := h previous rfl
    simp only [Option.elim_some, i32SaturatingAdd_of_fits hx,
      i32SaturatingAdd_of_fits hy]
    rfl

-- ================================= holding

theorem holding_join (a : MotionAccount) (slot : Option (Int × Int))
    (v : Int × Int) :
    holding a (some (slot.elim v fun previous => previous + v))
      = (holding a slot).add v := by
  cases slot with
  | none => rfl
  | some previous => exact (Account.add_add a previous v).symm

theorem holding_neg (a : MotionAccount) (slot : Option (Int × Int)) :
    holding (holding a slot) (slot.map Neg.neg) = a := by
  cases slot with
  | none => rfl
  | some v => simp [holding]

namespace Pointers

variable {p : Pointers}

/-- The slot's entries put its pan on the account. -/
theorem account_touchEntries (hp : p.Scaled) (ms : List ControlMsg) :
    Account.of panReading
        (ms ++ p.queues.touchEntries.map (·.message))
      = holding (Account.of panReading ms) p.pan := by
  rw [Account.of_append]
  unfold pan Queues.touchEntries
  cases hq : p.queues.touchUpdate with
  | none => rfl
  | some pending =>
    obtain ⟨n, scale, pan⟩ := pending
    have hscale : ∀ v, scale = some v → v ≠ 0 := by
      intro v hv
      have := hp v (by simp [Pointers.scale, hq, hv])
      omega
    cases scale with
    | none => cases pan <;> rfl
    | some v =>
      have hsilent : ∀ a : MotionAccount,
          Account.post panReading a (.touchScale v) = a :=
        fun a => Account.post_silent (by
          simp [panReading, ControlMsg.isTouchStart,
            ControlMsg.isTouchEnd, hscale v rfl])
      cases pan with
      | none => simp [PendingTouchUpdate.entries, hsilent, holding]
      | some pan =>
        show [ControlMsg.touchScale v,
          .touchPanUpdate pan.1 pan.2].foldl _ _ = _
        rw [List.foldl_cons, hsilent]
        rfl

/-- They are nothing to the wheel. -/
theorem wheelReading_touchEntries (hp : p.Scaled) :
    ∀ m ∈ p.queues.touchEntries.map (·.message),
      wheelReading m = .silent := by
  intro m hm
  obtain ⟨e, he, rfl⟩ := List.mem_map.mp hm
  unfold Queues.touchEntries at he
  cases hq : p.queues.touchUpdate with
  | none => rw [hq] at he; cases he
  | some pending =>
    rw [hq] at he
    rcases List.mem_append.mp he with he | he
    · obtain ⟨v, hv, rfl⟩ := List.mem_map.mp he
      have hpos : 0 < v := hp v (by simpa [scale, hq] using hv)
      have hreliable : ¬ v ≤ 0 := by omega
      simp [wheelReading, ControlMsg.isReliable, hreliable]
    · obtain ⟨_, -, rfl⟩ := List.mem_map.mp he
      rfl

theorem account_wheelEntries (ms : List ControlMsg) :
    Account.of wheelReading
        (ms ++ p.queues.wheelEntries.map (·.message))
      = holding (Account.of wheelReading ms) p.wheel := by
  unfold wheel Queues.wheelEntries
  cases p.queues.mouseWheel2D with
  | none => simp [holding]
  | some pending =>
    simp [holding, PendingMouseWheel2D.entry, Account.post, wheelReading]

theorem panReading_wheelEntries :
    ∀ m ∈ p.queues.wheelEntries.map (·.message),
      panReading m = .silent := by
  intro m hm
  obtain ⟨e, he, rfl⟩ := List.mem_map.mp hm
  obtain ⟨w, -, rfl⟩ := List.mem_map.mp he
  rfl

/-- The two orders of a flush are one account, when either slot is
silent in it. -/
private theorem account_flushed {read : ControlMsg → Reading (Int × Int)}
    (ms : List ControlMsg)
    (h : (∀ m ∈ p.queues.touchEntries.map (·.message), read m = .silent)
      ∨ ∀ m ∈ p.queues.wheelEntries.map (·.message),
        read m = .silent) :
    Account.of read (ms ++ p.queues.flushed.map (·.message))
      = Account.of read (ms ++ p.queues.touchEntries.map (·.message)
        ++ p.queues.wheelEntries.map (·.message)) := by
  unfold Queues.flushed
  unfold Queues.touchEntries Queues.wheelEntries at h ⊢
  cases ht : p.queues.touchUpdate with
  | none => cases p.queues.mouseWheel2D <;> simp
  | some touch =>
    cases hw : p.queues.mouseWheel2D with
    | none => simp
    | some wheel =>
      dsimp only
      split
      · simp
      · rw [ht, hw] at h
        have hleft : ms ++ (wheel.entry :: touch.entries).map
            (·.message) = ms ++ [wheel.entry.message]
              ++ touch.entries.map (·.message) := by simp
        show Account.of read (ms ++ _)
          = Account.of read (ms ++ touch.entries.map (·.message)
            ++ [wheel.entry.message])
        rw [hleft]
        rcases h with h | h
        · have htouch : ∀ m ∈ touch.entries.map (·.message),
              read m = .silent := h
          rw [Account.of_append_silent ms htouch]
          have := Account.of_append_silent
            (ms ++ [wheel.entry.message]) htouch []
          simpa using this
        · have hwheel : ∀ m ∈ [wheel.entry.message],
              read m = .silent := h
          rw [Account.of_append_silent ms hwheel]
          have := Account.of_append_silent
            (ms ++ touch.entries.map (·.message)) hwheel []
          simpa using this.symm

/-- A flush puts on the account what its slot held. -/
theorem account_flush_pan (hp : p.Scaled) (ms : List ControlMsg) :
    Account.of panReading (ms ++ p.flush.queues.reliable.map (·.message))
      = holding (Account.of panReading
          (ms ++ p.queues.reliable.map (·.message))) p.pan := by
  rw [reliable_flush, List.map_append, ← List.append_assoc,
    account_flushed _ (.inr panReading_wheelEntries),
    ← account_touchEntries hp]
  simpa using Account.of_append_silent
    (ms ++ p.queues.reliable.map (·.message)
      ++ p.queues.touchEntries.map (·.message))
    panReading_wheelEntries []

theorem account_flush_wheel (hp : p.Scaled) (ms : List ControlMsg) :
    Account.of wheelReading
        (ms ++ p.flush.queues.reliable.map (·.message))
      = holding (Account.of wheelReading
          (ms ++ p.queues.reliable.map (·.message))) p.wheel := by
  rw [reliable_flush, List.map_append, ← List.append_assoc,
    account_flushed _ (.inl (wheelReading_touchEntries hp)),
    ← account_wheelEntries]
  exact Account.of_append_silent _ (wheelReading_touchEntries hp) _

end Pointers

-- =============================== conserved

/-- What was handed out or waits has the account that is owed. -/
structure Strokes.Conserved (s : Strokes) (owed : MotionAccount) :
    Prop where
  pan : holding (Account.of panReading
      (s.delivered ++ s.pointers.queues.reliable.map (·.message)))
      s.pointers.pan = owed
  wheel : holding (Account.of wheelReading
      (s.delivered ++ s.pointers.queues.reliable.map (·.message)))
      s.pointers.wheel = Account.of wheelReading s.accepted

namespace Strokes

variable {s : Strokes} {owed : MotionAccount}

variable {m : ControlMsg} {p' : Pointers}

/-- A message behind a flush closes or passes by what was owed. -/
private theorem Conserved.append (h : s.Conserved owed) (hp : s.pointers.Scaled)
    {n : Nat} (hqueues : p'.queues = (s.pointers.flush.append n m).queues)
    {next : Nat} :
    Conserved
      { pointers := p', next, accepted := s.accepted ++ [m]
        delivered := s.delivered }
      (Account.post panReading owed m) where
  pan := by
    have hslot : p'.pan = none := by
      rw [Pointers.pan, hqueues]
      rfl
    have hline : (s.delivered
        ++ p'.queues.reliable.map (·.message))
        = s.delivered ++ s.pointers.flush.queues.reliable.map (·.message)
          ++ [m] := by
      rw [hqueues, Pointers.reliable_append, List.map_append,
        ← List.append_assoc]
      rfl
    rw [hslot, hline, Account.of_snoc, Pointers.account_flush_pan hp, h.pan]
    rfl
  wheel := by
    have hslot : p'.wheel = none := by
      rw [Pointers.wheel, hqueues]
      rfl
    have hline : (s.delivered
        ++ p'.queues.reliable.map (·.message))
        = s.delivered ++ s.pointers.flush.queues.reliable.map (·.message)
          ++ [m] := by
      rw [hqueues, Pointers.reliable_append, List.map_append,
        ← List.append_assoc]
      rfl
    rw [hslot, hline, Account.of_snoc, Pointers.account_flush_wheel hp,
      h.wheel, Account.of_snoc]
    rfl

/-- An accepted message adds to what is handed out or waits what it adds
to what is owed. -/
theorem Conserved.accepts (h : s.Conserved owed) (hp : s.pointers.Scaled)
    (hg : Conserves s.pointers m) (hm : s.pointers.Accepts s.next m p')
    {next : Nat} :
    Conserved
      { pointers := p', next, accepted := s.accepted ++ [m]
        delivered := s.delivered }
      (owing s.pointers owed m) := by
  cases hm with
  | flag m hquiet hmove hswitch =>
    have hpan : panReading m = .silent := by
      cases m <;> first | rfl | cases hquiet
    have hwheel : wheelReading m = .silent := by
      cases m <;> first | rfl | cases hquiet
    have hstart : m.isTouchStart = false := by
      cases m <;> first | rfl | cases hquiet
    constructor
    · rw [owing, hstart, Account.post_silent hpan]
      exact h.pan
    · rw [Account.of_snoc, Account.post_silent hwheel]
      exact h.wheel
  | move x y =>
    refine ⟨h.pan, ?_⟩
    rw [Account.of_snoc]
    exact h.wheel
  | switch display generation => cases hg.2.1
  | start x y =>
    constructor
    · rw [Pointers.reliable_append, List.map_append,
        ← List.append_assoc, List.map_singleton, Account.of_snoc,
        owing_start, ← h.pan, holding_neg]
      rfl
    · rw [Pointers.reliable_append, List.map_append,
        ← List.append_assoc, List.map_singleton, Account.of_snoc,
        Account.of_snoc]
      exact h.wheel
  | scale v hpos =>
    have hpan : panReading (.touchScale v) = .silent := by
      have hne : v ≠ 0 := by omega
      simp [panReading, ControlMsg.isTouchStart, ControlMsg.isTouchEnd,
        hne]
    have hwheel : wheelReading (.touchScale v) = .silent := by
      have hle : ¬ v ≤ 0 := by omega
      simp [wheelReading, ControlMsg.isReliable, hle]
    constructor
    · rw [owing]
      show _ = Account.post panReading owed _
      rw [Account.post_silent hpan]
      exact h.pan
    · rw [Account.of_snoc, Account.post_silent hwheel]
      exact h.wheel
  | pan x y =>
    constructor
    · rw [Pointers.pan_foldPan, joined_of_fits hg.2.2]
      show holding (Account.of panReading (s.delivered
        ++ s.pointers.queues.reliable.map (·.message))) _ = _
      rw [holding_join, h.pan]
      rfl
    · rw [Account.of_snoc]
      exact h.wheel
  | wheel x y =>
    constructor
    · exact h.pan
    · have hslot : (s.pointers.foldWheel s.next x y).wheel
          = some (s.pointers.wheel.elim (x, y) fun previous =>
            previous + (x, y)) := by
        rw [← joined_of_fits hg.2.2]
        rfl
      rw [hslot]
      show holding (Account.of wheelReading (s.delivered
        ++ s.pointers.queues.reliable.map (·.message))) _ = _
      rw [holding_join, h.wheel, Account.of_snoc]
      rfl
  | scaleEnd =>
    exact h.append (m := .touchScale 0) (n := s.next) hp (by rfl)
  | panEnd x y =>
    exact h.append (m := .touchPanEnd x y) (n := s.next) hp (by rfl)
  | reliable m hr hstart hend =>
    have howing : owing s.pointers owed m
        = Account.post panReading owed m := by
      rw [owing, hstart]
      rfl
    rw [howing]
    exact h.append hp rfl

/-- A message that neither account reads may go out at any time. -/
private theorem Conserved.unseen (h : s.Conserved owed)
    {out : List ControlMsg} (hpan : ∀ m ∈ out, panReading m = .silent)
    (hwheel : ∀ m ∈ out, wheelReading m = .silent) {queues : Queues}
    (hreliable : queues.reliable = s.pointers.queues.reliable)
    (htouch : queues.touchUpdate = s.pointers.queues.touchUpdate)
    (hslot : queues.mouseWheel2D = s.pointers.queues.mouseWheel2D) :
    Conserved
      { s with
        pointers := { s.pointers with queues := queues }
        delivered := s.delivered ++ out } owed where
  pan := by
    have hp : Pointers.pan { s.pointers with queues := queues }
        = s.pointers.pan := by simp [Pointers.pan, htouch]
    rw [hp]
    dsimp only
    rw [hreliable, Account.of_append_silent _ hpan]
    exact h.pan
  wheel := by
    have hp : Pointers.wheel { s.pointers with queues := queues }
        = s.pointers.wheel := by simp [Pointers.wheel, hslot]
    rw [hp]
    dsimp only
    rw [hreliable, Account.of_append_silent _ hwheel]
    exact h.wheel

/-- A turn of the drain loop adds nothing and loses nothing. -/
theorem Conserved.pops (h : s.Conserved owed) (ho : s.pointers.Ordered s.next)
    (hp : s.pointers.Scaled) {out : List Delivery}
    (hpop : s.pointers.Pops out p') :
    Conserved
      { s with
        pointers := p'
        delivered := s.delivered ++ out.map (·.message) } owed := by
  have hquiet : ∀ m : ControlMsg, m.isMove = true ∨ m.isSwitch = true →
      panReading m = .silent ∧ wheelReading m = .silent := by
    intro m hm
    cases m <;> first | exact ⟨rfl, rfl⟩ | simp [ControlMsg.isMove,
      ControlMsg.isSwitch] at hm
  have hscaled := hp.pops hpop
  cases hpop with
  | reliable e rest hq =>
    have hline : s.delivered ++ [e.delivery].map (·.message)
          ++ rest.map (·.message)
        = s.delivered ++ s.pointers.queues.reliable.map (·.message) := by
      simp [hq]
    exact
      ⟨(congrArg (fun ms => holding (Account.of panReading ms)
          s.pointers.pan) hline).trans h.pan,
        (congrArg (fun ms => holding (Account.of wheelReading ms)
          s.pointers.wheel) hline).trans h.wheel⟩
  | move e hq =>
    obtain ⟨hpan, hwheel⟩ :=
      hquiet e.message (.inl (ho.move_kind e hq))
    exact h.unseen (by simpa using hpan) (by simpa using hwheel)
      rfl rfl rfl
  | switch e hq =>
    obtain ⟨hpan, hwheel⟩ :=
      hquiet e.message (.inr (ho.switch_kind e hq))
    exact h.unseen (by simpa using hpan) (by simpa using hwheel)
      rfl rfl rfl
  | wheel pending hq strict =>
    have hstarts := ho.wheel_first hq strict
    have hsilent : ∀ m ∈ s.pointers.queues.reliable.map (·.message),
        wheelReading m = .silent := by
      intro m hm
      obtain ⟨e, he, rfl⟩ := List.mem_map.mp hm
      have hstart := hstarts e he
      cases hmessage : e.message <;> rw [hmessage] at hstart <;> first
        | rfl
        | cases hstart
    constructor
    · show holding (Account.of panReading
        (s.delivered ++ [pending.entry.message] ++ _)) _ = _
      rw [Account.of_append_silent s.delivered (by simp [panReading,
        PendingMouseWheel2D.entry, ControlMsg.isTouchStart,
        ControlMsg.isTouchEnd])]
      exact h.pan
    · have hwheel := h.wheel
      rw [Account.of_append, Account.foldl_silent _ hsilent] at hwheel
      show Account.of wheelReading
        (s.delivered ++ [pending.entry.message]
          ++ s.pointers.queues.reliable.map (·.message)) = _
      rw [Account.of_append, Account.foldl_silent _ hsilent,
        Account.of_snoc, ← hwheel, Pointers.wheel, hq]
      rfl
  | touch pending out rest hq strict split hrest =>
    have hempty := ho.touch_first hq strict
    have hmessages : (out.map SequencedControl.delivery).map (·.message)
        = out.map (·.message) := by simp
    -- what went out and what stays are what was in the slot
    have hentries : s.pointers.queues.touchEntries.map (·.message)
        = out.map (·.message)
          ++ (Queues.touchEntries { s.pointers.queues with
            touchUpdate := rest }).map (·.message) := by
      rw [← List.map_append]
      show (s.pointers.queues.touchEntries).map _
        = (out ++ rest.elim [] PendingTouchUpdate.entries).map _
      rw [split, Queues.touchEntries, hq]
      rfl
    have hpan := h.pan
    have hwheel := h.wheel
    rw [hempty, List.map_nil, List.append_nil] at hpan hwheel
    rw [hmessages]
    constructor
    · rw [← Pointers.account_touchEntries hp, hentries,
        ← List.append_assoc] at hpan
      have hafter := Pointers.account_touchEntries hscaled
        (s.delivered ++ out.map (·.message))
      dsimp only at hafter ⊢
      rw [hempty] at hafter ⊢
      rw [List.map_nil, List.append_nil, ← hafter]
      exact hpan
    · have hsilent : ∀ m ∈ out.map (·.message),
          wheelReading m = .silent := by
        intro m hm
        refine Pointers.wheelReading_touchEntries hp m ?_
        rw [hentries]
        exact List.mem_append_left _ hm
      dsimp only
      rw [hempty, List.map_nil, Account.of_append_silent _ hsilent,
        List.append_nil]
      exact hwheel

/-- What a run keeps of its motion. -/
structure MotionKept (s : Strokes) (owed : MotionAccount) : Prop where
  ordered : s.pointers.Ordered s.next
  scaled : s.pointers.Scaled
  conserved : s.Conserved owed

theorem MotionKept.skip (h : s.MotionKept owed) :
    MotionKept { s with next := min u64Max (s.next + 1) } owed where
  ordered := h.ordered.later
  scaled := h.scaled
  conserved := ⟨h.conserved.pan, h.conserved.wheel⟩

theorem MotionKept.accept (h : s.MotionKept owed) (hg : Conserves s.pointers m)
    (hm : s.pointers.Accepts s.next m p') :
    MotionKept
      { pointers := p', next := min u64Max (s.next + 1)
        accepted := s.accepted ++ [m], delivered := s.delivered }
      (owing s.pointers owed m) where
  ordered := (h.ordered.accepts hm).later
  scaled := h.scaled.accepts hg.1 hm
  conserved := h.conserved.accepts h.scaled hg hm

/-- A step that accepts nothing keeps what is owed. -/
theorem MotionKept.drain (h : s.MotionKept owed) {s' : Strokes}
    (hstep : Strokes.Step (fun _ _ => False) s s') :
    s'.MotionKept owed := by
  cases hstep with
  | accept m p' hg => exact hg.elim
  | skip => exact h.skip
  | pop out p' hp =>
    exact ⟨h.ordered.pops hp, h.scaled.pops hp,
      h.conserved.pops h.ordered h.scaled hp⟩
  | flag m hm =>
    refine ⟨h.ordered, h.scaled, h.conserved.unseen ?_ ?_ rfl rfl rfl⟩
    · intro m' hm'
      rw [List.mem_singleton.mp hm']
      cases m <;> first | rfl | cases hm
    · intro m' hm'
      rw [List.mem_singleton.mp hm']
      cases m <;> first | rfl | cases hm

theorem MotionKept.drained (h : s.MotionKept owed) {s' : Strokes}
    (hrun : Relation.ReflTransGen (Strokes.Step fun _ _ => False) s s') :
    s'.MotionKept owed := by
  induction hrun with
  | refl => exact h
  | tail _ hlast ih => exact ih.drain hlast

end Strokes

-- ==================================== runs

/-- A run with the account of the pans it owes. -/
structure Motion where
  trace : Trace
  pan : MotionAccount := .empty

namespace Motion

def start (gates : ControlInbox) : Motion := { trace := .start gates }

def step (r : Motion) (op : Op) : Motion :=
  { trace := r.trace.step op
    pan := match op with
      | .enqueue m =>
        if r.trace.takes m
        then owing r.trace.inbox.state.pointers r.pan m else r.pan
      | .takeBatch _ => r.pan }

/-- The account is a record: the run is the run of the inbox. -/
theorem trace_exec (r : Motion) (ops : List Op) :
    (exec step r ops).trace = exec Trace.step r.trace ops := by
  induction ops generalizing r with
  | nil => rfl
  | cons op ops ih => exact ih (r.step op)

/-- What the run delivered has the account it owed, and its scales are
the folds of what it accepted. -/
structure Delivered (r : Motion) : Prop where
  pan : Account.of panReading (r.trace.delivered.map (·.message)) = r.pan
  wheel : Account.of wheelReading (r.trace.delivered.map (·.message))
    = Account.of wheelReading (r.trace.accepted.map (·.message))
  /-- The scales accepted, cut into runs in order: each goes out as its
  left fold, but for one that waits when a touch start is accepted. -/
  scale : ∃ groups : List (FoldGroup ControlMsg),
    (r.trace.accepted.map (·.message)).filter TouchPart.scale.member
        = groups.flatMap FoldGroup.parts
      ∧ (r.trace.delivered.map (·.message)).filter TouchPart.scale.member
        = groups.filterMap (FoldGroup.output TouchPart.scale.rules)
      ∧ (∀ g ∈ groups, g.Sound TouchPart.scale.rules)
      ∧ DropsRestart TouchPart.scale.rules groups

/-- The run's own account is the one that is owed. -/
def Kept (r : Motion) : Prop := r.trace.strokes.MotionKept r.pan

theorem kept_start (gates : ControlInbox) : (start gates).Kept where
  ordered := Trace.ordered_start gates
  scaled _ hv := by cases hv
  conserved := ⟨rfl, rfl⟩

theorem kept_step {r : Motion} {op : Op}
    (hg : r.trace.Heeds Conserves op) (h : r.Kept) :
    (r.step op).Kept := by
  cases op with
  | enqueue m =>
    show (r.trace.stepEnqueue m).strokes.MotionKept
      (if r.trace.takes m
        then owing r.trace.inbox.state.pointers r.pan m else r.pan)
    rcases r.trace.stepEnqueue_cases m with
      ⟨htakes, p', hm, heq⟩ | ⟨htakes, heq | heq⟩
    · rw [htakes, heq, if_pos rfl]
      exact h.accept hg hm
    · rw [htakes, heq, if_neg Bool.false_ne_true]
      exact h
    · rw [htakes, heq, if_neg Bool.false_ne_true]
      exact h.skip
  | takeBatch limit =>
    exact h.drained (r.trace.strokes_takeBatch limit)

/-- A guarded run of the inbox is a guarded run with its account. -/
theorem meets {guard : Trace → Op → Prop} {r : Motion} {ops : List Op}
    (h : Meets Trace.step guard r.trace ops) :
    Meets step (fun r op => guard r.trace op) r ops := by
  induction ops generalizing r with
  | nil => trivial
  | cons op ops ih => exact ⟨h.1, ih (r := r.step op) h.2⟩

end Motion

/-- In every run without saturation, display switches and scales that
fold to zero, a drained inbox has delivered the motion it owed. -/
theorem motion_conserved (gates : ControlInbox) (ops : List Op)
    (h : Meets Trace.step (Trace.Heeds Conserves)
      (Trace.start gates) ops)
    (hdrained : (exec Motion.step (Motion.start gates)
      ops).trace.inbox.state.hasPending = false) :
    (exec Motion.step (Motion.start gates) ops).Delivered := by
  have hkept : (exec Motion.step (Motion.start gates) ops).Kept :=
    (Motion.meets (r := Motion.start gates) h).invariant
      (fun r op hr hg => Motion.kept_step hg hr)
      (Motion.kept_start gates)
  have htrace := Motion.trace_exec (Motion.start gates) ops
  generalize exec Motion.step (Motion.start gates) ops = r
    at hdrained hkept htrace
  obtain ⟨hreliable, htouch, hwheel⟩ : r.trace.inbox.state.reliable = []
      ∧ r.trace.inbox.state.touchUpdate = none
      ∧ r.trace.inbox.state.mouseWheel2D = none := by
    simp only [ControlInboxState.hasPending, Bool.or_eq_false_iff,
      Bool.not_eq_false', List.isEmpty_iff, Option.isSome_eq_false_iff,
      Option.isNone_iff_eq_none] at hdrained
    exact ⟨hdrained.1.1.1.1.1.1, hdrained.2, hdrained.1.1.1.1.2⟩
  have hqueue : r.trace.strokes.pointers.queues.reliable = [] := hreliable
  have hslot : r.trace.strokes.pointers.queues.touchUpdate = none := htouch
  have hwheel' : r.trace.strokes.pointers.queues.mouseWheel2D = none :=
    hwheel
  obtain ⟨gone, queued, last, hexplained⟩ :=
    (@TouchPart.kept_run .scale False Conserves
      (fun p m hg => ⟨hg.1, fun hs => by rw [hg.2.1] at hs; cases hs⟩)
      _ _ h).explained
  have hruns : r.trace = exec Trace.step (Trace.start gates) ops := htrace
  rw [← hruns] at hexplained
  constructor
  · have hpan := hkept.conserved.pan
    rw [hqueue, List.map_nil, List.append_nil, Pointers.pan, hslot] at hpan
    exact hpan
  · have hmoved := hkept.conserved.wheel
    rw [hqueue, List.map_nil, List.append_nil, Pointers.wheel,
      hwheel'] at hmoved
    exact hmoved
  · have hnone : TouchPart.scale.slot r.trace.strokes.pointers = none :=
      TouchPart.slot_none hslot
    refine hexplained.cut_of_drained id ?_ hnone
    show ((r.trace.strokes.pointers.queues.reliable.map _).filter _) = []
    rw [hqueue]
    rfl

/-- Pans, scales and wheel deltas around an end, in two batches. -/
theorem motion_conserved_drag :
    (exec Motion.step (Motion.start {})
      [.enqueue (.mouseWheel2D 0 1), .enqueue (.touchPanStart 0 0),
        .enqueue (.touchPanUpdate 3 4), .enqueue (.touchScale 1100),
        .enqueue (.touchPanUpdate 1 1), .enqueue (.mouseWheel2D 0 2),
        .takeBatch 1, .enqueue (.touchScale 1200),
        .enqueue (.touchScale 0), .takeBatch 16]).Delivered :=
  motion_conserved {} _ (by decide) (by decide)

/-- A pan that waits when a new touch start comes is never delivered:
between the two starts the peer sees no motion. -/
theorem motion_abandoned :
    let ops : List Op :=
      [.enqueue (.touchPanStart 0 0), .enqueue (.touchPanUpdate 20 30),
        .enqueue (.touchPanStart 5 6), .takeBatch 8]
    let t := exec Trace.step (Trace.start {}) ops
    t.inbox.state.hasPending = false
      ∧ t.accepted.map (·.message)
        = [.touchPanStart 0 0, .touchPanUpdate 20 30, .touchPanStart 5 6]
      ∧ t.delivered.map (·.message)
        = [.touchPanStart 0 0, .touchPanStart 5 6]
      ∧ Account.of panReading (t.delivered.map (·.message))
        ≠ Account.of panReading (t.accepted.map (·.message)) := by
  decide

end RemoteDesk.Inbox
