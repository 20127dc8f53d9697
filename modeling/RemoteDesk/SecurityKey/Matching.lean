/-
Requests and replies: a reply is returned to the request it was given
for, and a prompt that ends without one is dismissed.

# The invariant

Request ids are never reused (below wrap-around), so the log speaks of
each call by its id. `CallHolds` says at each point of a call what the
log and its broker hold of it: while it waits (`Waits`), the broker's
pending request is its own. Two calls cannot wait on one broker, since
their requests would be equal. `Matched.update` is the one step lemma: a
call moves on, with its own broker's mailbox and events of its own id.
-/
import RemoteDesk.SecurityKey.Broker

namespace RemoteDesk.SecurityKey

open Lib

-- ============================= the history

/-- The id of the request an event is about. -/
def KeyEvent.id? : KeyEvent → Option Nat
  | .asked request => some request.id
  | .delivered request => some request.id
  | .accepted id _ => some id
  | .dismissed id => some id
  | _ => none

/-- The broker is closed, or cancelled with no `Begin` since. -/
def Halted (before : List KeyEvent) (broker : Nat) (userFacing : Bool) :
    Prop :=
  .closed broker ∈ before
    ∨ userFacing = true ∧ Since (.cancelled broker) (· ≠ .began broker) before

/-- What is required of an event, given those before it. -/
def Lawful (before : List KeyEvent) : KeyEvent → Prop
  | .delivered request => .asked request ∈ before
  | .accepted id _ => (∃ request, request.id = id ∧ .delivered request ∈ before)
      ∧ ∀ reply, .accepted id reply ∉ before
  | .returned broker request userFacing (some kept) =>
    (∃ p reply q, before = p ++ .accepted request.id reply :: q
      ∧ .delivered request ∈ p ∧ reply.accept request.kind = some kept)
    ∧ ¬ Halted before broker userFacing
  | _ => True

/-- The events of calls and of replies. -/
def KeyEvent.talk : KeyEvent → Bool
  | .asked _ | .accepted _ _ | .returned _ _ _ _ | .granted _ _ => true
  | _ => false

/-- The events that end or resume what a broker asks. -/
def KeyEvent.halt : KeyEvent → Bool
  | .began _ | .cancelled _ | .closed _ => true
  | _ => false

def Broker.mailbox (b : Broker) : Option Request × Bool × Option Reply :=
  (b.pending, b.delivered, b.reply)

/-- A call that has put its request in place. -/
def Call.waiting (c : Call) : Bool :=
  match c.point with
  | .waking | .answering => true
  | _ => false

-- =========================== the invariant

namespace System

/-- What holds of a call that waits for its reply. -/
structure Waits (s : System) (c : Call) : Prop where
  id_pos : c.request.id ≠ 0
  pending : (s.brokers c.broker).pending = some c.request
  asked : .asked c.request ∈ s.log
  delivered : (s.brokers c.broker).delivered = true
    ↔ .delivered c.request ∈ s.log
  replied : ∀ kept, (s.brokers c.broker).reply = some kept →
    ∃ p reply q, s.log = p ++ .accepted c.request.id reply :: q
      ∧ .delivered c.request ∈ p ∧ reply.accept c.request.kind = some kept
  unreplied : (s.brokers c.broker).reply = none →
    ∀ reply, .accepted c.request.id reply ∉ s.log
  undismissed : .dismissed c.request.id ∉ s.log

def CallHolds (s : System) (c : Call) : Prop :=
  match c.point with
  | .admitting => c.request.id = 0
  | .waking | .answering => s.Waits c
  | .dismissing => c.userFacing = true ∧ .delivered c.request ∈ s.log
      ∧ .dismissed c.request.id ∉ s.log
  | .selecting _ => .dismissed c.request.id ∉ s.log
  | .returned result => s.log.count (.dismissed c.request.id)
      = if c.userFacing = true ∧ .delivered c.request ∈ s.log ∧ result = none
        then 1 else 0

structure Matched (s : System) : Prop where
  ids : ∀ (k : Nat) (c : Call), s.calls[k]? = some c →
    c.request.id ≤ s.lastRequestId
  distinct : ∀ (k k' : Nat) (c x : Call), s.calls[k]? = some c → s.calls[k']? = some x →
    c.request.id = x.request.id → c.request.id ≠ 0 → k = k'
  calls : ∀ (k : Nat) (c : Call), s.calls[k]? = some c → s.CallHolds c
  pending : ∀ broker request, (s.brokers broker).pending = some request →
    ∃ (k : Nat) (c : Call), s.calls[k]? = some c ∧ c.waiting = true ∧ c.broker = broker
      ∧ c.request = request
  logged : ∀ e ∈ s.log, ∀ id, e.id? = some id →
    id ≠ 0 ∧ id ≤ s.lastRequestId
  lawful : EveryAt Lawful s.log

variable {e : KeyEvent} {l : List KeyEvent} {s s' : System} {broker : Nat}
variable {b : Broker} {env : CallEnv} {reply : Reply}

section Frame

variable {c : Call}

theorem CallHolds.waits (h : s.CallHolds c) (hwait : c.waiting = true) :
    s.Waits c := by
  unfold CallHolds at h
  unfold Call.waiting at hwait
  split at hwait
  · rename_i hp
    rw [hp] at h
    exact h
  · rename_i hp
    rw [hp] at h
    exact h
  · cases hwait

theorem Waits.holds (h : s.Waits c) (hwait : c.waiting = true) :
    s.CallHolds c := by
  unfold CallHolds
  unfold Call.waiting at hwait
  split at hwait
  · rename_i hp
    rw [hp]
    exact h
  · rename_i hp
    rw [hp]
    exact h
  · cases hwait

/-- Events about other requests. -/
theorem mem_log_of_other (hlog : s'.log = s.log ++ l)
    (hes : ∀ e ∈ l, e.id? ≠ some c.request.id)
    (he : e.id? = some c.request.id) : e ∈ s'.log ↔ e ∈ s.log := by
  rw [hlog, List.mem_append]
  exact ⟨fun hm => hm.resolve_right fun hm => hes e hm he, Or.inl⟩

theorem Waits.frame (h : s.Waits c) (hlog : s'.log = s.log ++ l)
    (hes : ∀ e ∈ l, e.id? ≠ some c.request.id)
    (hbox : (s'.brokers c.broker).mailbox = (s.brokers c.broker).mailbox) :
    s'.Waits c := by
  have hmem := fun {e} he => mem_log_of_other (e := e) hlog hes he
  obtain ⟨hpending, hdelivered, hreply⟩ :
      (s'.brokers c.broker).pending = (s.brokers c.broker).pending
      ∧ (s'.brokers c.broker).delivered = (s.brokers c.broker).delivered
      ∧ (s'.brokers c.broker).reply = (s.brokers c.broker).reply := by
    simpa [Broker.mailbox] using hbox
  exact {
    id_pos := h.id_pos
    pending := hpending.trans h.pending
    asked := (hmem rfl).mpr h.asked
    delivered := by
      rw [hdelivered, h.delivered]
      exact (hmem rfl).symm
    replied := by
      intro kept hkept
      rw [hreply] at hkept
      obtain ⟨p, reply, q, hsplit, hdel, hacc⟩ := h.replied kept hkept
      exact ⟨p, reply, q ++ l, by rw [hlog, hsplit]; simp, hdel, hacc⟩
    unreplied := by
      intro hnone reply
      rw [hreply] at hnone
      rw [hmem rfl]
      exact h.unreplied hnone reply
    undismissed := by
      rw [hmem rfl]
      exact h.undismissed }

theorem CallHolds.frame (h : s.CallHolds c) (hlog : s'.log = s.log ++ l)
    (hes : ∀ e ∈ l, e.id? ≠ some c.request.id)
    (hbox : c.waiting = true →
      (s'.brokers c.broker).mailbox = (s.brokers c.broker).mailbox) :
    s'.CallHolds c := by
  have hmem := fun {e} he => mem_log_of_other (e := e) hlog hes he
  by_cases hwait : c.waiting = true
  · exact ((h.waits hwait).frame hlog hes (hbox hwait)).holds hwait
  unfold CallHolds at h ⊢
  unfold Call.waiting at hwait
  cases hp : c.point with
  | admitting =>
    rw [hp] at h
    exact h
  | waking =>
    rw [hp] at hwait
    exact absurd rfl hwait
  | answering =>
    rw [hp] at hwait
    exact absurd rfl hwait
  | dismissing =>
    rw [hp] at h
    obtain ⟨huser, hdel, hdis⟩ := h
    exact ⟨huser, (hmem rfl).mpr hdel, by
      rw [hmem rfl]
      exact hdis⟩
  | selecting reply =>
    rw [hp] at h
    dsimp only at h ⊢
    rw [hmem rfl]
    exact h
  | returned result =>
    rw [hp] at h
    have hcount : l.count (.dismissed c.request.id) = 0 :=
      List.count_eq_zero.mpr fun hm => hes _ hm rfl
    have hdel : .delivered c.request ∈ s'.log
        ↔ .delivered c.request ∈ s.log := hmem rfl
    simp only [hdel]
    rw [hlog, List.count_append, hcount, Nat.add_zero]
    exact h

end Frame

theorem calls_set {l : List Call} {k k' : Nat} {c x d : Call}
    (hk : l[k]? = some c) (h : (l.set k x)[k']? = some d) :
    k' = k ∧ d = x ∨ k' ≠ k ∧ l[k']? = some d := by
  by_cases heq : k' = k
  · subst heq
    rw [List.getElem?_set_self (List.getElem?_eq_some_iff.mp hk).1] at h
    exact Or.inl ⟨rfl, (Option.some.inj h).symm⟩
  · rw [List.getElem?_set_ne (Ne.symm heq)] at h
    exact Or.inr ⟨heq, h⟩

/-- A call moves on: its request stays, or gets a new id; the other
mailboxes stay, and its own unless it owns it. -/
theorem Matched.update (h : s.Matched) {k : Nat} {c x : Call}
    (hk : s.calls[k]? = some c) (hcalls : s'.calls = s.calls.set k x)
    (hlast : s.lastRequestId ≤ s'.lastRequestId)
    (hid : x.request.id = c.request.id
      ∨ s.lastRequestId < x.request.id ∧ x.request.id ≤ s'.lastRequestId)
    (hlog : s'.log = s.log ++ l)
    (hes : ∀ e ∈ l, ∀ id, e.id? = some id → id = x.request.id ∧ id ≠ 0)
    (hbox : ∀ broker,
      (s'.brokers broker).mailbox = (s.brokers broker).mailbox
        ∧ (c.waiting = true → c.broker = broker →
          x.waiting = true ∧ x.broker = c.broker ∧ x.request = c.request)
      ∨ broker = c.broker
        ∧ (c.waiting = true ∨ (s.brokers broker).pending = none)
        ∧ ∀ request, (s'.brokers broker).pending = some request →
          x.waiting = true ∧ x.broker = broker ∧ x.request = request)
    (hcall : s'.CallHolds x)
    (hlawful : EveryAt Lawful s'.log) : s'.Matched := by
  have hown := (h.calls k c hk)
  -- a new id is above all the others
  have hother : ∀ (k' : Nat) (d : Call), k' ≠ k → s.calls[k']? = some d →
      x.request.id ≠ 0 → d.request.id ≠ x.request.id := by
    intro k' d hne hd h0 heq
    rcases hid with hsame | ⟨hfresh, -⟩
    · exact hne (h.distinct k' k d c hd hk (heq.trans hsame) (heq ▸ h0))
    · have hle := h.ids k' d hd
      omega
  have hself : s'.calls[k]? = some x := by
    rw [hcalls, List.getElem?_set_self (List.getElem?_eq_some_iff.mp hk).1]
  have hid_le : x.request.id ≤ s'.lastRequestId := by
    rcases hid with hsame | ⟨-, hle⟩
    · exact hsame ▸ (h.ids k c hk).trans hlast
    · exact hle
  refine ⟨?_, ?_, ?_, ?_, ?_, hlawful⟩
  · intro k' d hd
    rw [hcalls] at hd
    rcases calls_set hk hd with ⟨-, rfl⟩ | ⟨-, hd⟩
    · exact hid_le
    · exact (h.ids k' d hd).trans hlast
  · intro k₁ k₂ d₁ d₂ h₁ h₂ heq h0
    rw [hcalls] at h₁ h₂
    rcases calls_set hk h₁ with ⟨rfl, rfl⟩ | ⟨hne₁, hd₁⟩
    · rcases calls_set hk h₂ with ⟨rfl, -⟩ | ⟨hne₂, hd₂⟩
      · rfl
      · exact absurd heq.symm (hother k₂ d₂ hne₂ hd₂ h0)
    · rcases calls_set hk h₂ with ⟨rfl, rfl⟩ | ⟨hne₂, hd₂⟩
      · exact absurd heq (hother k₁ d₁ hne₁ hd₁ (heq ▸ h0))
      · exact h.distinct k₁ k₂ d₁ d₂ hd₁ hd₂ heq h0
  · intro k' d hd
    rw [hcalls] at hd
    rcases calls_set hk hd with ⟨-, rfl⟩ | ⟨hne, hd⟩
    · exact hcall
    · apply (h.calls k' d hd).frame hlog
      · intro e he hid'
        obtain ⟨heq, h0⟩ := hes e he _ hid'
        exact hother k' d hne hd (heq ▸ h0) heq
      · intro hwait
        rcases hbox d.broker with ⟨hsame, -⟩ | ⟨hb, hor, -⟩
        · exact hsame
        · have hd' := (h.calls k' d hd).waits hwait
          rcases hor with hcw | hnone
          · have hc := hown.waits hcw
            have hreq : d.request = c.request := by
              have hp := hd'.pending
              rw [hb, hc.pending] at hp
              exact (Option.some.inj hp).symm
            exact absurd (h.distinct k' k d c hd hk
              (congrArg Request.id hreq) hd'.id_pos) hne
          · have hp := hd'.pending
            rw [hnone] at hp
            cases hp
  · intro broker request hp
    rcases hbox broker with ⟨hsame, hkeep⟩ | ⟨rfl, -, hpend⟩
    · have hold : (s.brokers broker).pending = some request := by
        rw [← hp]
        exact (congrArg Prod.fst hsame).symm
      obtain ⟨k', d, hd, hwait, hb, hreq⟩ := h.pending broker request hold
      by_cases heq : k' = k
      · subst heq
        cases hk.symm.trans hd
        obtain ⟨hw', hb', hr'⟩ := hkeep hwait hb
        exact ⟨k', x, hself, hw', hb'.trans hb, hr'.trans hreq⟩
      · refine ⟨k', d, ?_, hwait, hb, hreq⟩
        rw [hcalls, List.getElem?_set_ne (Ne.symm heq)]
        exact hd
    · obtain ⟨hw', hb', hr'⟩ := hpend request hp
      exact ⟨k, x, hself, hw', hb', hr'⟩
  · intro e he id hid'
    rw [hlog] at he
    rcases List.mem_append.mp he with he | he
    · exact ⟨(h.logged e he id hid').1, (h.logged e he id hid').2.trans hlast⟩
    · obtain ⟨rfl, h0⟩ := hes e he id hid'
      exact ⟨h0, hid_le⟩

/-- A step that leaves calls and mailboxes, and logs nothing of them. -/
theorem Matched.quiet (h : s.Matched) (hcalls : s'.calls = s.calls)
    (hlast : s'.lastRequestId = s.lastRequestId) (hbox : ∀ broker,
      (s'.brokers broker).mailbox = (s.brokers broker).mailbox)
    (hlog : s'.log = s.log ++ l) (hes : ∀ e ∈ l, e.id? = none)
    (hlawful : EveryAt Lawful s'.log) : s'.Matched := by
  refine ⟨?_, ?_, ?_, ?_, ?_, hlawful⟩
  · rw [hcalls, hlast]
    exact h.ids
  · rw [hcalls]
    exact h.distinct
  · intro k c hc
    rw [hcalls] at hc
    refine (h.calls k c hc).frame hlog ?_ fun _ => hbox _
    intro e he hid
    rw [hes e he] at hid
    cases hid
  · intro broker request hp
    rw [hcalls]
    apply h.pending broker request
    rw [← hp]
    exact (congrArg Prod.fst (hbox broker)).symm
  · intro e he id hid
    rw [hlast]
    rw [hlog] at he
    rcases List.mem_append.mp he with he | he
    · exact h.logged e he id hid
    · rw [hes e he] at hid
      cases hid

-- =============================== the halts

/-- The log of cancellations and closings agrees with the brokers. -/
structure Halts (s : System) : Prop where
  closed : ∀ broker, .closed broker ∈ s.log →
    (s.brokers broker).closed = true
  cancelled : ∀ broker,
    Since (.cancelled broker) (· ≠ .began broker) s.log →
    (s.brokers broker).cancelled = true

theorem Halts.not_halted (h : s.Halts) {userFacing : Bool}
    (hs : (s.brokers broker).stopped userFacing = false) :
    ¬ Halted s.log broker userFacing := by
  unfold Broker.stopped at hs
  rw [Bool.or_eq_false_iff] at hs
  rintro (hclosed | ⟨rfl, hcancelled⟩)
  · rw [h.closed broker hclosed] at hs
    exact absurd hs.1 (by decide)
  · rw [h.cancelled broker hcancelled] at hs
    exact absurd hs.2 (by decide)

-- ============================ the exchange

theorem result_eq_some {userFacing : Bool} {kept : Reply}
    (h : b.result userFacing = some kept) :
    b.reply = some kept ∧ b.stopped userFacing = false := by
  unfold Broker.result at h
  split at h
  · rename_i hanswered
    rw [Bool.and_eq_true, Bool.not_eq_true'] at hanswered
    exact ⟨h, hanswered.2⟩
  · cases h

section Exchange

variable {k : Nat} {c : Call}

theorem CallHolds.back {result : Option Reply}
    (h : s.log.count (.dismissed c.request.id)
      = if c.userFacing = true ∧ .delivered c.request ∈ s.log
          ∧ result = none then 1 else 0) :
    s.CallHolds { c with point := c.back result } := by
  cases result with
  | none => exact h
  | some reply =>
    unfold CallHolds
    dsimp only [Call.back]
    split
    · rename_i r hp
      split at hp <;> cases hp
    · rename_i r hp
      split at hp <;> cases hp
    · rename_i r hp
      split at hp <;> cases hp
    · rename_i r hp
      split at hp <;> cases hp
    · rw [if_neg (by simp)] at h
      exact List.count_eq_zero.mp h
    · rename_i result hp
      split at hp
      · cases hp
      · cases hp
        exact h

theorem nextRequestId_eq {skipped : Nat}
    (h : s.lastRequestId + skipped + 1 < 2 ^ 32) :
    s.nextRequestId skipped = s.lastRequestId + skipped + 1 := by
  unfold nextRequestId
  rw [Nat.mod_eq_of_lt h]
  exact if_neg (Nat.succ_ne_zero _)

/-- Nothing is logged of a request that has no id. -/
theorem Matched.unasked (h : s.Matched) (hid : e.id? = some 0) : e ∉ s.log :=
  fun he => (h.logged e he 0 hid).1 rfl

/-- A call returns before its request is in place. -/
theorem Matched.refuse (h : s.Matched) (hk : s.calls[k]? = some c)
    (h0 : c.request.id = 0) (hwait : c.waiting = false) :
    (s.giveBack k c none).Matched := by
  have hlawful : EveryAt Lawful (s.giveBack k c none).log :=
    everyAt_snoc.mpr ⟨h.lawful, trivial⟩
  refine h.update (l := [.returned c.broker
    c.request c.userFacing none]) hk rfl (Nat.le_refl _) (Or.inl rfl) rfl
    ?_ ?_ ?_ hlawful
  · intro e he id hid
    cases List.mem_singleton.mp he
    cases hid
  · intro broker
    refine Or.inl ⟨rfl, fun hw => ?_⟩
    rw [hwait] at hw
    cases hw
  · apply CallHolds.back
    have hdis : (.dismissed c.request.id) ∉ s.log :=
      h.unasked (by rw [h0]; rfl)
    have hdel : .delivered c.request ∉ s.log :=
      h.unasked (congrArg some h0)
    change (s.log ++ [_]).count _ = _
    rw [List.count_append, List.count_eq_zero.mpr hdis, if_neg]
    · rfl
    · rintro ⟨-, hmem, -⟩
      rcases List.mem_append.mp hmem with hmem | hmem
      · exact hdel hmem
      · simp at hmem

theorem Matched.place (h : s.Matched) (hk : s.calls[k]? = some c)
    (hp : c.point = .admitting) (env : CallEnv)
    (hfresh : s.lastRequestId + env.skipped + 1 < 2 ^ 32) :
    (s.place k c env).Matched := by
  have hcall := h.calls k c hk
  unfold CallHolds at hcall
  rw [hp] at hcall
  have hwait : c.waiting = false := by rw [Call.waiting, hp]
  unfold System.place
  dsimp only
  split
  · exact h.refuse hk hcall hwait
  · split
    · rename_i hnone
      rw [Option.isNone_iff_eq_none] at hnone
      rw [nextRequestId_eq hfresh]
      let request : Request := { c.request with
        id := s.lastRequestId + env.skipped + 1 }
      have hnew : ∀ e ∈ s.log, e.id? ≠ some request.id := by
        intro e he hid
        have hle := (h.logged e he _ hid).2
        change s.lastRequestId + env.skipped + 1 ≤ _ at hle
        omega
      refine h.update (l := [.asked request])
        (x := { c with request := request, point := .waking })
        hk rfl ?_ (Or.inr ⟨?_, Nat.le_refl _⟩) rfl ?_ ?_ ?_
        (everyAt_snoc.mpr ⟨h.lawful, trivial⟩)
      · change _ ≤ s.lastRequestId + env.skipped + 1
        omega
      · change _ < s.lastRequestId + env.skipped + 1
        omega
      · intro e he id hid
        cases List.mem_singleton.mp he
        cases hid
        exact ⟨rfl, Nat.succ_ne_zero _⟩
      · intro broker
        by_cases hb : broker = c.broker
        · subst hb
          refine Or.inr ⟨rfl, Or.inr hnone, fun r hr => ?_⟩
          change (Function.update s.brokers c.broker _ c.broker).pending
            = _ at hr
          rw [Function.update_self] at hr
          exact ⟨rfl, rfl, Option.some.inj hr⟩
        · refine Or.inl ⟨?_, fun hw => ?_⟩
          · change (Function.update s.brokers c.broker _ broker).mailbox = _
            rw [Function.update_of_ne hb]
          · rw [hwait] at hw
            cases hw
      · have hbox : (Function.update s.brokers c.broker
            ((s.brokers c.broker).place request)) c.broker
            = (s.brokers c.broker).place request := Function.update_self ..
        refine Waits.holds (c := { c with
          request := request, point := .waking }) ?_ rfl
        refine ⟨Nat.succ_ne_zero _, ?_, ?_, ?_, ?_, ?_, ?_⟩
        · exact congrArg Broker.pending hbox
        · exact List.mem_append_right _ (List.mem_singleton_self _)
        · constructor
          · intro hd
            have hd' := (congrArg Broker.delivered hbox).symm.trans hd
            cases hd'
          · intro hd
            rcases List.mem_append.mp hd with hd | hd
            · exact absurd rfl (hnew _ hd)
            · simp at hd
        · intro kept hkept
          have hkept' := (congrArg Broker.reply hbox).symm.trans hkept
          cases hkept'
        · intro _ reply hacc
          rcases List.mem_append.mp hacc with hacc | hacc
          · exact absurd rfl (hnew _ hacc)
          · simp at hacc
        · intro hdis
          rcases List.mem_append.mp hdis with hdis | hdis
          · exact absurd rfl (hnew _ hdis)
          · simp at hdis
    · split
      · exact h.refuse hk hcall hwait
      · exact h

/-- A call starts. -/
theorem Matched.append (h : s.Matched) (h0 : c.request.id = 0)
    (hp : c.point = .admitting) :
    { s with calls := s.calls ++ [c] }.Matched := by
  have hcases : ∀ {k : Nat} {d : Call}, (s.calls ++ [c])[k]? = some d →
      s.calls[k]? = some d ∨ d = c := by
    intro k d hd
    rw [List.getElem?_append] at hd
    split at hd
    · exact Or.inl hd
    · have hmem := List.mem_of_getElem? hd
      exact Or.inr (List.mem_singleton.mp hmem)
  have hlt : ∀ {k : Nat} {d : Call}, s.calls[k]? = some d →
      (s.calls ++ [c])[k]? = some d := by
    intro k d hd
    rw [List.getElem?_append_left (List.getElem?_eq_some_iff.mp hd).1]
    exact hd
  refine ⟨?_, ?_, ?_, ?_, h.logged, h.lawful⟩
  · intro k d hd
    rcases hcases hd with hd | rfl
    · exact h.ids k d hd
    · rw [h0]
      exact Nat.zero_le _
  · intro k k' d d' hd hd' heq hne
    rcases hcases hd with hd | rfl
    · rcases hcases hd' with hd' | rfl
      · exact h.distinct k k' d d' hd hd' heq hne
      · exact absurd (heq.trans h0) hne
    · exact absurd h0 hne
  · intro k d hd
    rcases hcases hd with hd | rfl
    · exact (h.calls k d hd).frame (l := []) (List.append_nil _).symm
        (by simp) fun _ => rfl
    · unfold CallHolds
      rw [hp]
      exact h0
  · intro broker request hpending
    obtain ⟨k, d, hd, hwait, hb, hr⟩ := h.pending broker request hpending
    exact ⟨k, d, hlt hd, hwait, hb, hr⟩

theorem Matched.exchange (h : s.Matched) (broker : Nat) (request : Request)
    (userFacing select : Bool)
    (hfresh : s.lastRequestId + env.skipped + 1 < 2 ^ 32) :
    (s.exchange broker request userFacing select env).Matched := by
  let call : Call := {
    broker := broker
    request := { request with id := 0 }
    userFacing := userFacing
    select := select
    point := .admitting }
  have happend := h.append (c := call) rfl rfl
  have hk : (s.calls ++ [call])[s.calls.length]? = some call :=
    List.getElem?_concat_length
  unfold System.exchange
  dsimp only
  split
  · exact happend.refuse hk rfl rfl
  · exact happend.place hk rfl env hfresh

/-- The watcher has been woken. -/
theorem Matched.wake (h : s.Matched) (hk : s.calls[k]? = some c)
    (hp : c.point = .waking) :
    (s.setCall k { c with point := .answering }).Matched := by
  have hwait : c.waiting = true := by rw [Call.waiting, hp]
  have hw := (h.calls k c hk).waits hwait
  refine h.update (l := []) (x := { c with point := .answering }) hk rfl
    (Nat.le_refl _) (Or.inl rfl) (List.append_nil _).symm (by simp) ?_ ?_
    h.lawful
  · intro broker
    exact Or.inl ⟨rfl, fun _ _ => ⟨rfl, rfl, rfl⟩⟩
  · exact Waits.holds (c := { c with point := .answering }) { hw with } rfl

theorem Matched.answer (h : s.Matched) (hhalts : s.Halts)
    (hk : s.calls[k]? = some c) (hp : c.point = .answering)
    (env : CallEnv) : (s.answer k c env).Matched := by
  have hwait : c.waiting = true := by rw [Call.waiting, hp]
  have hw := (h.calls k c hk).waits hwait
  have hcount : s.log.count (.dismissed c.request.id) = 0 :=
    List.count_eq_zero.mpr hw.undismissed
  let s' : System := s.setBroker c.broker (s.brokers c.broker).clear
  have hbox : ∀ {s'' : System} {x : Call}, s''.brokers = s'.brokers →
      ∀ broker,
        (s''.brokers broker).mailbox = (s.brokers broker).mailbox
          ∧ (c.waiting = true → c.broker = broker →
            x.waiting = true ∧ x.broker = c.broker
              ∧ x.request = c.request)
        ∨ broker = c.broker
          ∧ (c.waiting = true ∨ (s.brokers broker).pending = none)
          ∧ ∀ request, (s''.brokers broker).pending = some request →
            x.waiting = true ∧ x.broker = broker
              ∧ x.request = request := by
    intro s'' x hs'' broker
    rw [hs'']
    by_cases hb : broker = c.broker
    · refine Or.inr ⟨hb, Or.inl hwait, fun request hr => ?_⟩
      change (Function.update s.brokers c.broker _ broker).pending = _ at hr
      rw [hb, Function.update_self] at hr
      cases hr
    · refine Or.inl ⟨?_, fun _ heq => absurd heq.symm hb⟩
      change (Function.update s.brokers c.broker _ broker).mailbox = _
      rw [Function.update_of_ne hb]
  unfold System.answer
  dsimp only
  split
  · exact h
  · generalize hresult : (s.brokers c.broker).result c.userFacing = result
    split
    · rename_i hdismiss
      simp only [Bool.and_eq_true] at hdismiss
      obtain ⟨⟨huser, hdelivered⟩, -⟩ := hdismiss
      exact h.update (l := []) (x := { c with point := .dismissing }) hk
        rfl (Nat.le_refl _) (Or.inl rfl) (List.append_nil _).symm (by simp)
        (hbox rfl) ⟨huser, hw.delivered.mp hdelivered, hw.undismissed⟩
        h.lawful
    · rename_i hdismiss
      refine h.update (l := [.returned c.broker c.request c.userFacing
          result]) hk rfl (Nat.le_refl _) (Or.inl rfl) rfl ?_ (hbox rfl) ?_
        (everyAt_snoc.mpr ⟨h.lawful, ?_⟩)
      · intro e he id hid
        cases List.mem_singleton.mp he
        cases hid
      · apply CallHolds.back
        change (s.log ++ [_]).count _ = _
        rw [List.count_append, hcount, if_neg]
        · rfl
        · rintro ⟨huser, hdel, hnone⟩
          have hdel' : .delivered c.request ∈ s.log := by
            rcases List.mem_append.mp hdel with hdel | hdel
            · exact hdel
            · simp at hdel
          apply hdismiss
          rw [huser, hw.delivered.mpr hdel', hnone]
          rfl
      · cases result with
        | none => trivial
        | some kept =>
          obtain ⟨hreply, hlive⟩ := result_eq_some hresult
          exact ⟨hw.replied kept hreply, hhalts.not_halted hlive⟩

theorem Matched.dismiss (h : s.Matched) (hk : s.calls[k]? = some c)
    (hp : c.point = .dismissing) : (s.dismiss k c).Matched := by
  have hcall := h.calls k c hk
  unfold CallHolds at hcall
  rw [hp] at hcall
  obtain ⟨huser, hdel, hdis⟩ := hcall
  have hwait : c.waiting = false := by rw [Call.waiting, hp]
  have hlog : (s.dismiss k c).log = s.log ++ [.dismissed c.request.id,
      .returned c.broker c.request c.userFacing none] := by
    change (s.log ++ [_]) ++ [_] = _
    rw [List.append_assoc]
    rfl
  refine h.update hk rfl (Nat.le_refl _) (Or.inl rfl) hlog ?_ ?_ ?_ ?_
  · intro e he id hid
    rcases List.mem_cons.mp he with rfl | he
    · cases hid
      exact ⟨rfl, (h.logged _ hdel _ rfl).1⟩
    · cases List.mem_singleton.mp he
      cases hid
  · intro broker
    refine Or.inl ⟨rfl, fun hw => ?_⟩
    rw [hwait] at hw
    cases hw
  · apply CallHolds.back
    rw [hlog, List.count_append, List.count_eq_zero.mpr hdis, if_pos]
    · simp
    · exact ⟨huser, List.mem_append_left _ hdel, rfl⟩
  · change EveryAt Lawful ((s.log ++ [_]) ++ [_])
    exact everyAt_snoc.mpr ⟨everyAt_snoc.mpr ⟨h.lawful, trivial⟩, trivial⟩

theorem Matched.authorize (h : s.Matched) (hk : s.calls[k]? = some c)
    (hp : c.point = .selecting reply) : (s.authorize k c reply).Matched := by
  have hdis := h.calls k c hk
  unfold CallHolds at hdis
  rw [hp] at hdis
  have hwait : c.waiting = false := by rw [Call.waiting, hp]
  have hbox : ∀ broker,
      (Function.update s.brokers c.broker
        ((s.brokers c.broker).authorize reply) broker).mailbox
        = (s.brokers broker).mailbox := by
    intro broker
    by_cases hb : broker = c.broker
    · rw [hb, Function.update_self]
      unfold Broker.authorize
      split <;> rfl
    · rw [Function.update_of_ne hb]
  have hcount : s.log.count (.dismissed c.request.id) = 0 :=
    List.count_eq_zero.mpr hdis
  unfold System.authorize
  dsimp only
  split
  · refine h.update (l := [])
      (x := { c with point := .returned (some reply) }) hk rfl
      (Nat.le_refl _) (Or.inl rfl) (List.append_nil _).symm (by simp)
      (fun broker => Or.inl ⟨hbox broker, fun hw => ?_⟩) ?_ h.lawful
    · rw [hwait] at hw
      cases hw
    · refine hcount.trans (if_neg ?_).symm
      simp
  · refine h.update (l := [.granted c.broker c.request.id])
      (x := { c with point := .returned (some reply) }) hk rfl
      (Nat.le_refl _) (Or.inl rfl) rfl ?_
      (fun broker => Or.inl ⟨hbox broker, fun hw => ?_⟩) ?_
      (everyAt_snoc.mpr ⟨h.lawful, trivial⟩)
    · intro e he id hid
      cases List.mem_singleton.mp he
      cases hid
    · rw [hwait] at hw
      cases hw
    · have hcount' : (s.log ++ [KeyEvent.granted c.broker
          c.request.id]).count (.dismissed c.request.id) = 0 := by
        rw [List.count_append, hcount]
        rfl
      refine hcount'.trans (if_neg ?_).symm
      simp

theorem Matched.resume (h : s.Matched) (hhalts : s.Halts) (k : Nat)
    (hfresh : s.lastRequestId + env.skipped + 1 < 2 ^ 32) :
    (s.resume k env).Matched := by
  unfold System.resume
  split
  · exact h
  · rename_i c hk
    split
    · rename_i hp
      exact h.place hk hp env hfresh
    · rename_i hp
      exact h.wake hk hp
    · rename_i hp
      exact h.answer hhalts hk hp env
    · rename_i hp
      exact h.dismiss hk hp
    · rename_i hp
      exact h.authorize hk hp
    · exact h

end Exchange

-- ============================= the watcher

theorem poll_eq_some {b' : Broker} {request : Request}
    (h : b.poll = some (request, b')) :
    b.pending = some request ∧ b.delivered = false
      ∧ b' = { b with delivered := true } := by
  unfold Broker.poll at h
  split at h
  · cases h
  · rename_i hfree
    rw [Bool.or_eq_true, not_or, Bool.not_eq_true, Bool.not_eq_true]
      at hfree
    rw [Option.map_eq_some_iff] at h
    obtain ⟨request', hpending, heq⟩ := h
    cases heq
    exact ⟨hpending, hfree.2, rfl⟩

theorem respond_eq_some {b' : Broker} {id : Nat}
    (h : b.respond id reply = some b') :
    ∃ request kept, b.pending = some request ∧ b.delivered = true
      ∧ b.reply = none ∧ request.id = id
      ∧ reply.accept request.kind = some kept
      ∧ b' = { b with reply := some kept } := by
  unfold Broker.respond at h
  split at h
  · cases h
  · rename_i request hpending
    split at h
    · cases h
    · rename_i hopen
      simp only [Bool.or_eq_true, not_or, Bool.not_eq_true,
        Bool.not_eq_false', Option.isSome_eq_false_iff,
        Option.isNone_iff_eq_none, decide_eq_false_iff_not, not_not]
        at hopen
      rw [Option.map_eq_some_iff] at h
      obtain ⟨kept, hkept, rfl⟩ := h
      exact ⟨request, kept, hpending, hopen.1.1.2, hopen.1.2, hopen.2,
        hkept, rfl⟩

section Watcher

variable {b' : Broker} {request : Request}

/-- The pending request is delivered or answered. -/
theorem Matched.own (h : s.Matched)
    (hpending : (s.brokers broker).pending = some request)
    (hpending' : b'.pending = some request) (hid : e.id? = some request.id)
    (hlawful : Lawful s.log e)
    (hwaits : ∀ c, s.Waits c → c.broker = broker → c.request = request →
      ((s.setBroker broker b').note e).Waits c) :
    ((s.setBroker broker b').note e).Matched := by
  obtain ⟨k, c, hk, hwait, hb, hr⟩ := h.pending broker request hpending
  have hw := (h.calls k c hk).waits hwait
  have hset : s.calls = s.calls.set k c := by
    obtain ⟨hlt, hget⟩ := List.getElem?_eq_some_iff.mp hk
    rw [← hget, List.set_getElem_self]
  refine h.update (l := [e]) hk hset (Nat.le_refl _) (Or.inl rfl) rfl
    ?_ ?_ ((hwaits c hw hb hr).holds hwait)
    (everyAt_snoc.mpr ⟨h.lawful, hlawful⟩)
  · intro e' he' id hid'
    cases List.mem_singleton.mp he'
    rw [hid] at hid'
    cases hid'
    exact ⟨congrArg Request.id hr.symm, hr ▸ hw.id_pos⟩
  · intro broker'
    by_cases hb' : broker' = broker
    · refine Or.inr ⟨hb'.trans hb.symm, Or.inl hwait, fun request' hr' => ?_⟩
      change (Function.update s.brokers broker b' broker').pending = _ at hr'
      rw [hb', Function.update_self, hpending'] at hr'
      exact ⟨hwait, hb.trans hb'.symm, hr.trans (Option.some.inj hr')⟩
    · refine Or.inl ⟨?_, fun _ _ => ⟨hwait, rfl, rfl⟩⟩
      change (Function.update s.brokers broker b' broker').mailbox = _
      rw [Function.update_of_ne hb']

theorem Matched.deliver (h : s.Matched)
    (hpoll : (s.brokers broker).poll = some (request, b')) :
    ((s.setBroker broker b').note (.delivered request)).Matched := by
  obtain ⟨hpending, hfree, rfl⟩ := poll_eq_some hpoll
  have hown : ∀ c, s.Waits c → c.request = request →
      .asked request ∈ s.log := by
    rintro c hw rfl
    exact hw.asked
  obtain ⟨k, c, hk, hwait, hb, hr⟩ := h.pending broker request hpending
  have hpending' : ({ s.brokers broker with delivered := true } :
      Broker).pending = some request := hpending
  refine h.own (e := .delivered request) hpending hpending' rfl
    (hown c ((h.calls k c hk).waits hwait) hr) ?_
  rintro c hw rfl rfl
  have hself : Function.update s.brokers c.broker
      { s.brokers c.broker with delivered := true } c.broker
      = { s.brokers c.broker with delivered := true } :=
    Function.update_self ..
  refine ⟨hw.id_pos, ?_, List.mem_append_left _ hw.asked, ?_, ?_, ?_, ?_⟩
  · exact (congrArg Broker.pending hself).trans hw.pending
  · constructor
    · exact fun _ => List.mem_append_right _ (List.mem_singleton_self _)
    · exact fun _ => congrArg Broker.delivered hself
  · intro kept hkept
    obtain ⟨p, reply, q, hsplit, hdel, hacc⟩ :=
      hw.replied kept ((congrArg Broker.reply hself).symm.trans hkept)
    refine ⟨p, reply, q ++ [.delivered c.request], ?_, hdel, hacc⟩
    change s.log ++ [_] = _
    rw [hsplit, List.append_assoc]
    rfl
  · intro hnone reply hm
    rcases List.mem_append.mp hm with hm | hm
    · exact hw.unreplied ((congrArg Broker.reply hself).symm.trans hnone)
        reply hm
    · simp at hm
  · intro hm
    rcases List.mem_append.mp hm with hm | hm
    · exact hw.undismissed hm
    · simp at hm

theorem Matched.accept (h : s.Matched) {id : Nat}
    (hrespond : (s.brokers broker).respond id reply = some b') :
    ((s.setBroker broker b').note (.accepted id reply)).Matched := by
  obtain ⟨request, kept, hpending, hdelivered, hnone, rfl, hkept, rfl⟩ :=
    respond_eq_some hrespond
  obtain ⟨k, c, hk, hwait, hb, hr⟩ := h.pending broker request hpending
  subst hb hr
  have hw := (h.calls k c hk).waits hwait
  have hdel := hw.delivered.mp hdelivered
  have hpending' : ({ s.brokers c.broker with reply := some kept } :
      Broker).pending = some c.request := hpending
  refine h.own (e := .accepted c.request.id reply) hpending hpending' rfl
    ⟨⟨c.request, rfl, hdel⟩, hw.unreplied hnone⟩ ?_
  intro d hd hdb hdr
  have hself : (Function.update s.brokers c.broker
      { s.brokers c.broker with reply := some kept }) d.broker
      = { s.brokers c.broker with reply := some kept } := by
    rw [hdb, Function.update_self]
  refine ⟨hd.id_pos, ?_, List.mem_append_left _ hd.asked, ?_, ?_, ?_, ?_⟩
  · rw [hdr]
    exact (congrArg Broker.pending hself).trans hpending
  · refine ⟨fun _ => List.mem_append_left _ (hdr ▸ hdel), fun _ => ?_⟩
    exact (congrArg Broker.delivered hself).trans hdelivered
  · intro kept' hkept'
    have heq := (congrArg Broker.reply hself).symm.trans hkept'
    cases heq
    exact ⟨s.log, reply, [], by rw [hdr]; rfl, hdr ▸ hdel, hdr ▸ hkept⟩
  · intro hnone'
    have heq := (congrArg Broker.reply hself).symm.trans hnone'
    cases heq
  · intro hm
    rcases List.mem_append.mp hm with hm | hm
    · exact hd.undismissed hm
    · simp at hm

end Watcher

-- =============================== the frame

/-- What the steps of calls and replies leave as it is. -/
structure Talks (s s' : System) : Prop where
  log : ∃ l, s'.log = s.log ++ l ∧ ∀ e ∈ l, e.talk = true
  session : s'.session = s.session
  retirements : s'.retirements = s.retirements
  polls : s'.polls = s.polls
  closed : ∀ broker, (s'.brokers broker).closed = (s.brokers broker).closed
  cancelled : ∀ broker,
    (s'.brokers broker).cancelled = (s.brokers broker).cancelled

theorem Talks.of_broker (hlog : s'.log = s.log ++ l)
    (hes : ∀ e ∈ l, e.talk = true) (hsession : s'.session = s.session)
    (hretirements : s'.retirements = s.retirements)
    (hpolls : s'.polls = s.polls)
    (hbrokers : s'.brokers = Function.update s.brokers broker b)
    (hclosed : b.closed = (s.brokers broker).closed)
    (hcancelled : b.cancelled = (s.brokers broker).cancelled) : s.Talks s' := by
  refine ⟨⟨l, hlog, hes⟩, hsession, hretirements, hpolls, ?_, ?_⟩
  · intro broker'
    rw [hbrokers]
    by_cases hb : broker' = broker
    · rw [hb, Function.update_self, hclosed]
    · rw [Function.update_of_ne hb]
  · intro broker'
    rw [hbrokers]
    by_cases hb : broker' = broker
    · rw [hb, Function.update_self, hcancelled]
    · rw [Function.update_of_ne hb]

section Talks

variable (s : System) (k : Nat) (c : Call) (env : CallEnv)

theorem giveBack_talks (result : Option Reply) :
    s.Talks (s.giveBack k c result) :=
  ⟨⟨[.returned c.broker c.request c.userFacing result], rfl, by simp
    [KeyEvent.talk]⟩, rfl, rfl, rfl, fun _ => rfl, fun _ => rfl⟩

theorem place_talks : s.Talks (s.place k c env) := by
  unfold System.place
  dsimp only
  split
  · exact s.giveBack_talks k c none
  · split
    · exact .of_broker (l := [.asked _]) rfl (by simp [KeyEvent.talk])
        rfl rfl rfl rfl rfl rfl
    · split
      · exact s.giveBack_talks k c none
      · exact ⟨⟨[], (List.append_nil _).symm, by simp⟩, rfl, rfl, rfl,
          fun _ => rfl, fun _ => rfl⟩

theorem exchange_talks (broker : Nat) (request : Request)
    (userFacing select : Bool) :
    s.Talks (s.exchange broker request userFacing select env) := by
  unfold System.exchange
  dsimp only
  split
  · exact { giveBack_talks _ _ _ none with }
  · exact { place_talks _ _ _ env with }

theorem answer_talks : s.Talks (s.answer k c env) := by
  unfold System.answer
  dsimp only
  split
  · exact ⟨⟨[], (List.append_nil _).symm, by simp⟩, rfl, rfl, rfl,
      fun _ => rfl, fun _ => rfl⟩
  · generalize (s.brokers c.broker).result c.userFacing = result
    split
    · exact .of_broker (l := []) (List.append_nil _).symm (by simp) rfl rfl
        rfl rfl rfl rfl
    · exact .of_broker (l := [.returned c.broker c.request c.userFacing
        result]) rfl (by simp [KeyEvent.talk]) rfl rfl rfl rfl rfl rfl

theorem authorize_talks (reply : Reply) :
    s.Talks (s.authorize k c reply) := by
  have hclosed : ((s.brokers c.broker).authorize reply).closed
      = (s.brokers c.broker).closed := by
    unfold Broker.authorize
    split <;> rfl
  have hcancelled : ((s.brokers c.broker).authorize reply).cancelled
      = (s.brokers c.broker).cancelled := by
    unfold Broker.authorize
    split <;> rfl
  unfold System.authorize
  dsimp only
  split
  · exact .of_broker (l := []) (List.append_nil _).symm (by simp) rfl rfl
      rfl rfl hclosed hcancelled
  · exact .of_broker (l := [.granted c.broker c.request.id]) rfl
      (by simp [KeyEvent.talk]) rfl rfl rfl rfl hclosed hcancelled

/-- `resume` but for the posting of a dismissal. -/
theorem resume_talks (hc : s.calls[k]? = some c)
    (hp : c.point ≠ .dismissing) : s.Talks (s.resume k env) := by
  unfold System.resume
  rw [hc]
  dsimp only
  split
  · exact s.place_talks k c env
  · exact ⟨⟨[], (List.append_nil _).symm, by simp⟩, rfl, rfl, rfl,
      fun _ => rfl, fun _ => rfl⟩
  · exact s.answer_talks k c env
  · rename_i hdismissing
    exact absurd hdismissing hp
  · exact s.authorize_talks k c _
  · exact ⟨⟨[], (List.append_nil _).symm, by simp⟩, rfl, rfl, rfl,
      fun _ => rfl, fun _ => rfl⟩

theorem respond_talks (broker id : Nat) (reply : Reply) :
    s.Talks (s.respond broker id reply) := by
  unfold System.respond
  split
  · exact ⟨⟨[], (List.append_nil _).symm, by simp⟩, rfl, rfl, rfl,
      fun _ => rfl, fun _ => rfl⟩
  · rename_i b hb
    obtain ⟨request, kept, -, -, -, -, -, rfl⟩ := respond_eq_some hb
    exact .of_broker (l := [.accepted id reply]) rfl
      (by simp [KeyEvent.talk]) rfl rfl rfl rfl rfl rfl

end Talks

/-- The log grows by other events, and no broker is opened again. -/
theorem Halts.frame (h : s.Halts) (hlog : s'.log = s.log ++ l)
    (hes : ∀ e ∈ l, e.halt = false)
    (hclosed : ∀ broker, (s.brokers broker).closed = true →
      (s'.brokers broker).closed = true)
    (hcancelled : ∀ broker, (s.brokers broker).cancelled = true →
      (s'.brokers broker).cancelled = true) : s'.Halts := by
  have hnot : ∀ {e : KeyEvent}, e.halt = true → e ∉ l := by
    intro e he hm
    rw [hes e hm] at he
    cases he
  constructor
  · intro broker hm
    rw [hlog] at hm
    rcases List.mem_append.mp hm with hm | hm
    · exact hclosed broker (h.closed broker hm)
    · exact absurd hm (hnot rfl)
  · intro broker hsince
    rw [hlog] at hsince
    exact hcancelled broker (h.cancelled broker (hsince.left (hnot rfl)))

theorem Halts.talks (h : s.Halts) (ht : s.Talks s') : s'.Halts := by
  obtain ⟨l, hlog, hes⟩ := ht.log
  refine h.frame hlog (fun e he => ?_) (fun broker hc => ?_)
    fun broker hc => ?_
  · have htalk := hes e he
    cases e <;> first | rfl | cases htalk
  · rw [ht.closed]
    exact hc
  · rw [ht.cancelled]
    exact hc

/-- A broker changes, and the others stay. -/
theorem update_keeps {P : Broker → Broker → Prop} (hrefl : ∀ b, P b b) {i : Nat}
    (hb : P (s.brokers i) b) (broker : Nat) :
    P (s.brokers broker) ((s.setBroker i b).brokers broker) := by
  change P _ (Function.update s.brokers i b broker)
  by_cases heq : broker = i
  · rw [heq, Function.update_self]
    exact hb
  · rw [Function.update_of_ne heq]
    exact hrefl _

/-- `b` asks on where `a` asked, or has stopped. -/
def Stops (a b : Broker) : Prop :=
  (a.closed = true → b.closed = true)
    ∧ (a.cancelled = true → b.cancelled = true) ∧ b.mailbox = a.mailbox

theorem Stops.refl (b : Broker) : Stops b b := ⟨id, id, rfl⟩

theorem close_stops (b : Broker) : Stops b b.close.1 := by
  unfold Broker.close
  split
  · exact Stops.refl b
  · exact ⟨fun _ => rfl, fun _ => rfl, rfl⟩

theorem forget_stops (b : Broker) : Stops b b.forget.1 := by
  unfold Broker.forget
  split
  · exact ⟨id, id, rfl⟩
  · exact Stops.refl b

/-- A step that leaves the calls, stops brokers at most, and logs
nothing of requests. -/
structure Retires (s s' : System) (l : List KeyEvent) : Prop where
  calls : s'.calls = s.calls
  last : s'.lastRequestId = s.lastRequestId
  log : s'.log = s.log ++ l
  stops : ∀ broker, Stops (s.brokers broker) (s'.brokers broker)

theorem Matched.retires (h : s.Matched) (hs : s.Retires s' l)
    (hes : ∀ e ∈ l, e.id? = none ∧ ∀ before, Lawful before e) : s'.Matched := by
  refine h.quiet hs.calls hs.last (fun broker => (hs.stops broker).2.2)
    hs.log (fun e he => (hes e he).1) ?_
  rw [hs.log]
  exact h.lawful.append fun e he _ _ => (hes e he).2 _

theorem Halts.retires (h : s.Halts) (hs : s.Retires s' l)
    (hes : ∀ e ∈ l, e.halt = false) : s'.Halts :=
  h.frame hs.log hes (fun broker => (hs.stops broker).1)
    fun broker => (hs.stops broker).2.1

theorem retires_of_eq (hcalls : s'.calls = s.calls)
    (hlast : s'.lastRequestId = s.lastRequestId) (hlog : s'.log = s.log ++ l)
    (hbrokers : s'.brokers = s.brokers) : s.Retires s' l :=
  ⟨hcalls, hlast, hlog, fun _ => hbrokers ▸ Stops.refl _⟩

section Retires

variable (s : System)

theorem attach_retires (context : Nat) :
    s.Retires (s.attach context) []
      ∨ ∃ broker, s.Retires (s.attach context) [.removed broker] := by
  unfold System.attach
  split
  · exact Or.inl (retires_of_eq rfl rfl (List.append_nil _).symm rfl)
  · dsimp only
    split
    · exact Or.inl (retires_of_eq rfl rfl (List.append_nil _).symm rfl)
    · exact Or.inr ⟨_, retires_of_eq rfl rfl rfl rfl⟩

theorem close_retires (context : Nat) :
    s.Retires (s.close context) [] := by
  unfold System.close
  split
  · exact retires_of_eq rfl rfl (List.append_nil _).symm rfl
  · exact retires_of_eq rfl rfl (List.append_nil _).symm rfl

theorem detach_retires (context : Nat) :
    s.Retires (s.detach context) []
      ∨ ∃ broker, s.Retires (s.detach context) [.removed broker] := by
  unfold System.detach
  split
  · exact Or.inl (retires_of_eq rfl rfl (List.append_nil _).symm rfl)
  · exact Or.inr ⟨_, retires_of_eq rfl rfl rfl rfl⟩

theorem forget_retires (broker : Nat) :
    s.Retires (s.forget broker) []
      ∨ s.Retires (s.forget broker) [.owed broker] := by
  have hstops := update_keeps (s := s) Stops.refl
    (forget_stops (s.brokers broker))
  unfold System.forget
  dsimp only
  split
  · exact Or.inr ⟨rfl, rfl, rfl, hstops⟩
  · exact Or.inl ⟨rfl, rfl, (List.append_nil _).symm, hstops⟩

theorem prune_retires : s.Retires s.prune [] := by
  unfold System.prune
  split
  · exact retires_of_eq rfl rfl (List.append_nil _).symm rfl
  · split
    · exact retires_of_eq rfl rfl (List.append_nil _).symm rfl
    · exact retires_of_eq rfl rfl (List.append_nil _).symm rfl

theorem closeBroker_retires (k : Nat) (r : Retirement) :
    s.Retires (s.closeBroker k r)
      (closeEvents (s.brokers r.broker) r.broker) :=
  ⟨rfl, rfl, rfl,
    update_keeps (s := s) Stops.refl (close_stops (s.brokers r.broker))⟩

theorem retire_retires (k : Nat) :
    s.Retires (s.retire k) []
      ∨ (∃ broker, s.Retires (s.retire k) [.posted broker])
      ∨ ∃ r, s.retire k = s.closeBroker k r := by
  unfold System.retire
  split
  · exact Or.inl (retires_of_eq rfl rfl (List.append_nil _).symm rfl)
  · rename_i r hr
    split
    · exact Or.inr (Or.inr ⟨r, rfl⟩)
    · exact Or.inr (Or.inl ⟨r.broker, retires_of_eq rfl rfl rfl rfl⟩)
    · exact Or.inl { s.prune_retires with }
    · exact Or.inl (retires_of_eq rfl rfl (List.append_nil _).symm rfl)

theorem poll_retires :
    ∃ l, s.Retires s.poll l
      ∧ (l = [] ∨ l = [.release] ∨ ∃ id, l = [.taken id]) := by
  unfold System.poll
  dsimp only
  split
  · exact ⟨_, retires_of_eq rfl rfl rfl rfl, Or.inr (Or.inl rfl)⟩
  · split
    · exact ⟨_, retires_of_eq rfl rfl rfl rfl, Or.inr (Or.inr ⟨_, rfl⟩)⟩
    · exact ⟨_, retires_of_eq rfl rfl (List.append_nil _).symm rfl,
        Or.inl rfl⟩

theorem released_retires : s.Retires s.released [.released] :=
  retires_of_eq rfl rfl rfl rfl

theorem unauthorize_retires (broker : Nat) :
    s.Retires (s.unauthorize broker) [] :=
  ⟨rfl, rfl, (List.append_nil _).symm,
    update_keeps (s := s) Stops.refl ⟨id, id, rfl⟩⟩

theorem cancel_retires (broker : Nat) :
    s.Retires (s.cancel broker) [.cancelled broker] :=
  ⟨rfl, rfl, rfl,
    update_keeps (s := s) Stops.refl ⟨id, fun _ => rfl, rfl⟩⟩

theorem touch_retires (value : Nat) : s.Retires (s.touch value) [] :=
  retires_of_eq rfl rfl (List.append_nil _).symm rfl

end Retires

-- =============================== the steps

/-- Below the wrap-around of the request ids. -/
def Fresh (s : System) : KeyOp → Prop
  | .exchange _ _ _ env | .select _ env | .resume _ env =>
    s.lastRequestId + env.skipped + 1 < 2 ^ 32
  | _ => True

theorem closeEvents_quiet :
    ∀ e ∈ closeEvents b broker,
      e.id? = none ∧ ∀ before, Lawful before e := by
  unfold closeEvents
  split
  · simp
  · split <;> simp [KeyEvent.id?, Lawful]

instance (s : System) (op : KeyOp) : Decidable (s.Fresh op) := by
  unfold Fresh
  cases op <;> infer_instance

/-- What holds of every run below the wrap-around. -/
structure Sound (s : System) : Prop where
  matched : s.Matched
  halts : s.Halts

theorem Sound.retires (h : s.Sound) (hs : s.Retires s' l)
    (hes : ∀ e ∈ l, (e.id? = none ∧ ∀ before, Lawful before e)
      ∧ e.halt = false) : s'.Sound :=
  ⟨h.matched.retires hs fun e he => (hes e he).1,
    h.halts.retires hs fun e he => (hes e he).2⟩

theorem Sound.retire (h : s.Sound) (k : Nat) : (s.retire k).Sound := by
  rcases s.retire_retires k with hs | ⟨broker, hs⟩ | ⟨r, hs⟩
  · exact h.retires hs (by simp)
  · exact h.retires hs (by simp [KeyEvent.id?, Lawful, KeyEvent.halt])
  · rw [hs]
    have hretires := s.closeBroker_retires k r
    refine ⟨h.matched.retires hretires closeEvents_quiet, ?_, ?_⟩
    · intro broker hm
      change .closed broker ∈ s.log ++ _ at hm
      rcases List.mem_append.mp hm with hm | hm
      · exact (hretires.stops broker).1 (h.halts.closed broker hm)
      · have hb : broker = r.broker := by
          unfold closeEvents at hm
          split at hm
          · cases hm
          · split at hm <;> simpa using hm
        change (Function.update s.brokers r.broker _ broker).closed = true
        rw [hb, Function.update_self]
        unfold Broker.close
        split
        · assumption
        · rfl
    · intro broker hsince
      apply (hretires.stops broker).2.1
      apply h.halts.cancelled broker
      apply hsince.left
      unfold closeEvents
      split
      · simp
      · split <;> simp

theorem Sound.pollNext (h : s.Sound) (k : Nat) : (s.pollNext k).Sound := by
  unfold System.pollNext
  split
  · rename_i broker hk
    split
    · exact h.retires (l := []) (retires_of_eq rfl rfl
        (List.append_nil _).symm rfl) (by simp)
    · rename_i request b hpoll
      have hdeliver := h.matched.deliver hpoll
      obtain ⟨-, -, rfl⟩ := poll_eq_some hpoll
      refine ⟨{ hdeliver with
        calls := fun k' c hc => (hdeliver.calls k' c hc).frame (l := [])
          (List.append_nil _).symm (by simp) fun _ => rfl }, ?_⟩
      have hflags := update_keeps (s := s)
        (P := fun a b => (a.closed = true → b.closed = true)
          ∧ (a.cancelled = true → b.cancelled = true))
        (fun _ => ⟨id, id⟩) (i := broker)
        (b := { s.brokers broker with delivered := true }) ⟨id, id⟩
      exact h.halts.frame (l := [.delivered request]) rfl
        (by simp [KeyEvent.halt]) (fun broker' => (hflags broker').1)
        fun broker' => (hflags broker').2
  · dsimp only
    split
    · exact h.retires (l := []) (retires_of_eq rfl rfl
        (List.append_nil _).symm rfl) (by simp)
    · exact h.retires (l := [.touched _]) (retires_of_eq rfl rfl rfl rfl)
        (by simp [KeyEvent.id?, Lawful, KeyEvent.halt])
  · exact h

theorem Sound.begin (h : s.Sound) (broker : Nat) : (s.begin broker).Sound := by
  unfold System.begin
  dsimp only
  split
  · exact h
  · rename_i hopen
    have hbegin : (s.brokers broker).begin
        = { s.brokers broker with cancelled := false } := if_neg hopen
    rw [hbegin]
    have hbox := update_keeps (s := s)
      (P := fun a b => b.mailbox = a.mailbox
        ∧ (a.closed = true → b.closed = true))
      (fun _ => ⟨rfl, id⟩) (i := broker)
      (b := { s.brokers broker with cancelled := false }) ⟨rfl, id⟩
    refine ⟨h.matched.quiet (l := [.began broker]) rfl rfl
      (fun broker' => (hbox broker').1) rfl (by simp [KeyEvent.id?])
      (everyAt_snoc.mpr ⟨h.matched.lawful, trivial⟩), ?_, ?_⟩
    · intro broker' hm
      apply (hbox broker').2
      apply h.halts.closed broker'
      rcases List.mem_append.mp hm with hm | hm
      · exact hm
      · simp at hm
    · intro broker' hsince
      rcases since_snoc hsince with heq | ⟨hsince, hne⟩
      · cases heq
      · change (Function.update s.brokers broker _ broker').cancelled = true
        rw [Function.update_of_ne fun heq => hne (by rw [heq])]
        exact h.halts.cancelled broker' hsince

theorem Sound.cancel (h : s.Sound) (broker : Nat) :
    (s.cancel broker).Sound := by
  have hretires := s.cancel_retires broker
  refine ⟨h.matched.retires hretires (by simp [KeyEvent.id?, Lawful]),
    ?_, ?_⟩
  · intro broker' hm
    apply (hretires.stops broker').1
    apply h.halts.closed broker'
    rcases List.mem_append.mp hm with hm | hm
    · exact hm
    · simp at hm
  · intro broker' hsince
    rcases since_snoc hsince with heq | ⟨hsince, -⟩
    · cases heq
      change (Function.update s.brokers broker _ broker).cancelled = true
      rw [Function.update_self]
      rfl
    · exact (hretires.stops broker').2.1 (h.halts.cancelled broker' hsince)

theorem Sound.resume (h : s.Sound) (k : Nat)
    (hfresh : s.lastRequestId + env.skipped + 1 < 2 ^ 32) :
    (s.resume k env).Sound := by
  refine ⟨h.matched.resume h.halts k hfresh, ?_⟩
  cases hk : s.calls[k]? with
  | none =>
    unfold System.resume
    rw [hk]
    exact h.halts
  | some c =>
    by_cases hp : c.point = .dismissing
    · unfold System.resume
      rw [hk]
      dsimp only
      rw [hp]
      refine h.halts.frame (l := [.dismissed c.request.id,
        .returned c.broker c.request c.userFacing none]) ?_
        (by simp [KeyEvent.halt]) (fun _ => id) fun _ => id
      change (s.log ++ [_]) ++ [_] = _
      rw [List.append_assoc]
      rfl
    · exact h.halts.talks (s.resume_talks k c env hk hp)

/-- Every step keeps calls and replies matched. -/
theorem Sound.step (h : s.Sound) (op : KeyOp)
    (hfresh : s.Fresh op) : (s.step op).Sound := by
  cases op with
  | exchange broker request userFacing env =>
    exact ⟨h.matched.exchange broker request userFacing false hfresh,
      h.halts.talks (s.exchange_talks env broker request userFacing false)⟩
  | select broker env =>
    exact ⟨h.matched.exchange broker _ true true hfresh,
      h.halts.talks (s.exchange_talks env broker _ true true)⟩
  | resume k env => exact h.resume k hfresh
  | attach context =>
    rcases s.attach_retires context with hs | ⟨broker, hs⟩
    · exact h.retires hs (by simp)
    · exact h.retires hs (by simp [KeyEvent.id?, Lawful, KeyEvent.halt])
  | close context => exact h.retires (s.close_retires context) (by simp)
  | detach context =>
    rcases s.detach_retires context with hs | ⟨broker, hs⟩
    · exact h.retires hs (by simp)
    · exact h.retires hs (by simp [KeyEvent.id?, Lawful, KeyEvent.halt])
  | retire k => exact h.retire k
  | forget broker =>
    rcases s.forget_retires broker with hs | hs
    · exact h.retires hs (by simp)
    · exact h.retires hs (by simp [KeyEvent.id?, Lawful, KeyEvent.halt])
  | poll =>
    obtain ⟨l, hs, rfl | rfl | ⟨id, rfl⟩⟩ := s.poll_retires
    · exact h.retires hs (by simp)
    · exact h.retires hs (by simp [KeyEvent.id?, Lawful, KeyEvent.halt])
    · exact h.retires hs (by simp [KeyEvent.id?, Lawful, KeyEvent.halt])
  | pollNext k => exact h.pollNext k
  | respond broker id reply =>
    refine ⟨?_, h.halts.talks (s.respond_talks broker id reply)⟩
    change (s.respond broker id reply).Matched
    unfold System.respond
    split
    · exact h.matched
    · rename_i b hb
      exact h.matched.accept hb
  | released =>
    exact h.retires s.released_retires
      (by simp [KeyEvent.id?, Lawful, KeyEvent.halt])
  | unauthorize broker =>
    exact h.retires (s.unauthorize_retires broker) (by simp)
  | cancel broker => exact h.cancel broker
  | begin broker => exact h.begin broker
  | touch value => exact h.retires (s.touch_retires value) (by simp)

-- ========================== the dismissals

/-- An event that leaves a dismissal where it is. -/
def Stands (id : Nat) (e : KeyEvent) : Prop :=
  e ≠ .taken id ∧ ∀ id', e ≠ .dismissed id'

/-- The last dismissal posted waits in the session, until the watcher
takes it. -/
def Slot (s : System) : Prop :=
  ∃ session, s.session = some session ∧ session.watched = true
    ∧ ∀ id, Since (.dismissed id) (Stands id) s.log →
      session.dismiss = some id

theorem Slot.frame (h : s.Slot) (hlog : s'.log = s.log ++ l)
    (hes : ∀ e ∈ l, ∀ id, e ≠ .dismissed id)
    (hsession : ∃ update : Session → Session,
      s'.session = s.session.map update
        ∧ ∀ x, (update x).dismiss = x.dismiss
          ∧ (update x).watched = x.watched) : s'.Slot := by
  obtain ⟨session, hs, hwatched, hlast⟩ := h
  obtain ⟨update, hs', hupdate⟩ := hsession
  refine ⟨update session, by rw [hs', hs]; rfl,
    (hupdate session).2.trans hwatched, fun id hsince => ?_⟩
  rw [(hupdate session).1]
  apply hlast id
  rw [hlog] at hsince
  exact hsince.left fun hm => hes _ hm id rfl

theorem Slot.same (h : s.Slot) (hlog : s'.log = s.log ++ l)
    (hes : ∀ e ∈ l, ∀ id, e ≠ .dismissed id)
    (hsession : s'.session = s.session) : s'.Slot :=
  h.frame hlog hes
    ⟨fun x => x, by rw [hsession, Option.map_id'], fun _ => ⟨rfl, rfl⟩⟩

theorem Slot.talks (h : s.Slot) (ht : s.Talks s') : s'.Slot := by
  obtain ⟨l, hlog, hes⟩ := ht.log
  refine h.same hlog (fun e he id heq => ?_) ht.session
  have htalk := hes e he
  rw [heq] at htalk
  cases htalk

theorem Slot.prune (h : s.Slot) : s.prune = s := by
  obtain ⟨session, hs, hwatched, -⟩ := h
  unfold System.prune
  rw [hs]
  simp [hwatched]

theorem Slot.dismiss (h : s.Slot) (k : Nat) (c : Call) :
    (s.dismiss k c).Slot := by
  obtain ⟨session, hs, hwatched, -⟩ := h
  refine ⟨{ session with dismiss := some c.request.id }, ?_, hwatched,
    fun id hsince => ?_⟩
  · change s.session.map _ = _
    rw [hs]
    rfl
  · rcases since_snoc hsince with heq | ⟨hsince, -⟩
    · cases heq
    · rcases since_snoc hsince with heq | ⟨-, hstands⟩
      · cases heq
        rfl
      · exact absurd rfl (hstands.2 c.request.id)

theorem Slot.poll (h : s.Slot) : s.poll.Slot := by
  obtain ⟨session, hs, hwatched, hlast⟩ := h
  unfold System.poll
  rw [hs]
  dsimp only [Option.getD]
  split
  · refine Slot.frame ⟨session, hs, hwatched, hlast⟩ (l := [.release]) rfl
      (by simp) ⟨_, rfl, fun _ => ⟨rfl, rfl⟩⟩
  · split
    · rename_i id hdismiss
      refine ⟨{ session with dismiss := none }, ?_, hwatched,
        fun id' hsince => ?_⟩
      · change s.session.map _ = _
        rw [hs]
        rfl
      · rcases since_snoc hsince with heq | ⟨hsince, hstands⟩
        · cases heq
        · -- the slot held the dismissal that was taken
          have hslot := hlast id' hsince
          rw [hdismiss] at hslot
          cases hslot
          exact absurd rfl hstands.1
    · exact Slot.same ⟨session, hs, hwatched, hlast⟩
        (List.append_nil _).symm (by simp) hs.symm

theorem Slot.resume (h : s.Slot) (k : Nat) (env : CallEnv) :
    (s.resume k env).Slot := by
  cases hk : s.calls[k]? with
  | none =>
    unfold System.resume
    rw [hk]
    exact h
  | some c =>
    by_cases hp : c.point = .dismissing
    · unfold System.resume
      rw [hk]
      dsimp only
      rw [hp]
      exact h.dismiss k c
    · exact h.talks (s.resume_talks k c env hk hp)

theorem Slot.retire (h : s.Slot) (k : Nat) : (s.retire k).Slot := by
  unfold System.retire
  split
  · exact h
  · rename_i r hr
    split
    · refine h.same (l := closeEvents (s.brokers r.broker) r.broker) rfl
        (fun e he id heq => ?_) rfl
      rw [heq] at he
      unfold closeEvents at he
      split at he
      · cases he
      · split at he <;> simp at he
    · exact h.frame (l := [.posted r.broker]) rfl (by simp)
        ⟨_, rfl, fun _ => ⟨rfl, rfl⟩⟩
    · rw [h.prune]
      exact h.same (List.append_nil _).symm (by simp) rfl
    · exact h

theorem Slot.pollNext (h : s.Slot) (k : Nat) : (s.pollNext k).Slot := by
  unfold System.pollNext
  split
  · split
    · exact h.same (List.append_nil _).symm (by simp) rfl
    · exact h.same (l := [.delivered _]) rfl (by simp) rfl
  · dsimp only
    split
    · exact h.same (List.append_nil _).symm (by simp) rfl
    · exact h.frame (l := [.touched _]) rfl (by simp)
        ⟨_, rfl, fun _ => ⟨rfl, rfl⟩⟩
  · exact h

theorem Slot.attach (h : s.Slot) (context : Nat) : (s.attach context).Slot := by
  have hsession : some (s.session.getD {}) = s.session := by
    obtain ⟨session, hs, -⟩ := h
    rw [hs]
    rfl
  unfold System.attach
  split
  · exact h
  · dsimp only
    split
    · exact h.same (List.append_nil _).symm (by simp) hsession
    · exact h.same (l := [.removed _]) rfl (by simp) hsession

/-- Every step keeps the last dismissal. -/
theorem Slot.step (h : s.Slot) (op : KeyOp) : (s.step op).Slot := by
  cases op with
  | exchange broker request userFacing env =>
    exact h.talks (s.exchange_talks env broker request userFacing false)
  | select broker env =>
    exact h.talks (s.exchange_talks env broker _ true true)
  | resume k env => exact h.resume k env
  | attach context => exact h.attach context
  | close context =>
    change (s.close context).Slot
    unfold System.close
    split <;> exact h.same (List.append_nil _).symm (by simp) rfl
  | detach context =>
    change (s.detach context).Slot
    unfold System.detach
    split
    · exact h
    · exact h.same (l := [.removed _]) rfl (by simp) rfl
  | retire k => exact h.retire k
  | forget broker =>
    change (s.forget broker).Slot
    unfold System.forget
    dsimp only
    split
    · exact h.same (l := [.owed broker]) rfl (by simp) rfl
    · exact h.same (List.append_nil _).symm (by simp) rfl
  | poll => exact h.poll
  | pollNext k => exact h.pollNext k
  | respond broker id reply =>
    exact h.talks (s.respond_talks broker id reply)
  | released =>
    exact h.frame (l := [.released]) rfl (by simp)
      ⟨_, rfl, fun _ => ⟨rfl, rfl⟩⟩
  | unauthorize broker =>
    exact h.same (List.append_nil _).symm (by simp) rfl
  | cancel broker => exact h.same (l := [.cancelled broker]) rfl (by simp) rfl
  | begin broker =>
    change (s.begin broker).Slot
    unfold System.begin
    dsimp only
    split
    · exact h
    · exact h.same (l := [.began broker]) rfl (by simp) rfl
  | touch value =>
    exact h.frame (List.append_nil _).symm (by simp)
      ⟨_, rfl, fun _ => ⟨rfl, rfl⟩⟩

-- ================================ the runs

theorem watched_sound : watched.Sound := by
  refine ⟨⟨?_, ?_, ?_, ?_, ?_, everyAt_nil _⟩, ?_, ?_⟩
  · intro k c hc
    cases hc
  · intro k k' c x hc
    cases hc
  · intro k c hc
    cases hc
  · intro broker request hp
    cases hp
  · intro e he
    cases he
  · intro broker hm
    cases hm
  · intro broker hsince
    cases hsince.mem

theorem watched_slot : watched.Slot :=
  ⟨{ watched := true }, rfl, rfl, fun _ hsince => by cases hsince.mem⟩

/-- A run of brokers and their watcher, below the wrap-around of the
request ids: what is returned was accepted for that request, after the
watcher had it, once, and from a broker not halted; and a prompt that
the watcher had and that returns nothing has been dismissed once, where
the watcher finds it unless a later dismissal took its place. -/
theorem matching {ops : List KeyOp} (h : Meets System.step Fresh watched ops) :
    let s := exec System.step watched ops
    EveryAt Lawful s.log
    ∧ (∀ c ∈ s.calls, ∀ result, c.point = .returned result →
      s.log.count (.dismissed c.request.id)
        = if c.userFacing = true ∧ .delivered c.request ∈ s.log
            ∧ result = none then 1 else 0)
    ∧ (∀ p id q, s.log = p ++ .dismissed id :: q →
      s.session.bind (·.dismiss) = some id ∨ .taken id ∈ q
        ∨ ∃ id', .dismissed id' ∈ q) := by
  have hsound := h.invariant (fun s op hs hf => Sound.step hs op hf)
    watched_sound
  have hslot := @exec_invariant _ _ System.step Slot
    (fun _ op hs => hs.step op) _ ops watched_slot
  intro s
  refine ⟨hsound.matched.lawful, ?_, ?_⟩
  · intro c hc result hp
    obtain ⟨k, hk⟩ := List.mem_iff_getElem?.mp hc
    have hcall := hsound.matched.calls k c hk
    unfold CallHolds at hcall
    rw [hp] at hcall
    exact hcall
  · intro p id q hsplit
    by_contra hnone
    simp only [not_or, not_exists] at hnone
    obtain ⟨hslot', htaken, hother⟩ := hnone
    obtain ⟨session, hs, -, hlast⟩ := hslot
    apply hslot'
    change (exec System.step watched ops).session.bind _ = _
    rw [hs]
    apply hlast id
    refine ⟨p, q, hsplit, fun e he => ⟨?_, fun id' => ?_⟩⟩
    · intro heq
      exact htaken (heq ▸ he)
    · intro heq
      exact hother id' (heq ▸ he)

/-- One prompt is answered, and another cancelled after the watcher has
it. -/
def twoPrompts : List KeyOp :=
  [.attach 5, .exchange 0 { kind := .confirm } true {}, .resume 0 {}, .poll,
    .pollNext 0, .respond 0 1 { ok := true }, .resume 0 {},
    .exchange 0 { kind := .confirm } true {}, .resume 1 {}, .poll,
    .pollNext 1, .cancel 0, .resume 1 {}, .resume 1 {}]

theorem matching_two :
    let s := exec System.step watched twoPrompts
    s.calls.map (·.point) = [.returned (some { ok := true }), .returned none]
      ∧ EveryAt Lawful s.log ∧ s.log.count (.dismissed 2) = 1 := by
  obtain ⟨hlawful, hcount, -⟩ :=
    matching (show Meets System.step Fresh watched twoPrompts by
      decide +kernel)
  refine ⟨by decide +kernel, hlawful, ?_⟩
  have hdismissed := hcount
    { broker := 0, request := { id := 2, kind := .confirm }
      userFacing := true, select := false, point := .returned none }
    (by decide +kernel) none rfl
  exact hdismissed.trans (if_pos (by decide +kernel))

end System

end RemoteDesk.SecurityKey
