/-
Releases and selections: the watcher lets go of an old key before it is
asked for a new one.

# What is owed

A broker that is closed, or forgets its key, owes the watcher a Release,
and posts it in a section of its own. `Poll` looks for the flag in one
section and hands over a broker's request in another. Between these, and
between the sections of `Attach`, `Detach` and `Close`, nothing is held:
a request can pass the Release that is on its way. What is proved here
is about the runs without such an overlap (`Clash`).

# The invariants

`Owned` follows an authorization back to a Select the watcher has
received. `Ready` says where an owed Release is: on its way, or in the
session's flag; and that no `Poll` that has looked is still out while it
is.
-/
import RemoteDesk.SecurityKey.Matching

namespace RemoteDesk.SecurityKey

open Lib

-- ====================== the authorizations

/-- An authorization is given on a Select the watcher has received. -/
def Granted (before : List KeyEvent) : KeyEvent → Prop
  | .granted _ id => ∃ request, request.id = id ∧ request.kind = .select
      ∧ .delivered request ∈ before
  | _ => True

/-- What a broker's mailbox says of the log. -/
def BoxHolds (log : List KeyEvent) (b : Broker) : Prop :=
  (b.reply.isSome = true → b.delivered = true)
    ∧ ∀ request, b.pending = some request → b.delivered = true →
      .delivered request ∈ log

variable {log : List KeyEvent} {broker : Nat}

theorem BoxHolds.frame {log' : List KeyEvent} {b b' : Broker}
    (h : BoxHolds log b) (hbox : b'.mailbox = b.mailbox)
    (hlog : log ⊆ log') : BoxHolds log' b' := by
  obtain ⟨hpending, hdelivered, hreply⟩ :
      b'.pending = b.pending ∧ b'.delivered = b.delivered
        ∧ b'.reply = b.reply := by
    simpa [Broker.mailbox] using hbox
  unfold BoxHolds
  rw [hpending, hdelivered, hreply]
  exact ⟨h.1, fun request hr hd => hlog (h.2 request hr hd)⟩

namespace System

structure Owned (s : System) : Prop where
  waits : ∀ (k : Nat) (c : Call), s.calls[k]? = some c → c.waiting = true →
    (s.brokers c.broker).pending = some c.request
  alone : ∀ (k k' : Nat) (c x : Call), s.calls[k]? = some c →
    s.calls[k']? = some x → c.waiting = true → x.waiting = true →
    c.broker = x.broker → k = k'
  boxes : ∀ broker, BoxHolds s.log (s.brokers broker)
  selecting : ∀ (k : Nat) (c : Call) (reply : Reply), s.calls[k]? = some c →
    c.point = .selecting reply →
    c.select = true ∧ .delivered c.request ∈ s.log
  kind : ∀ (k : Nat) (c : Call), s.calls[k]? = some c → c.select = true →
    c.request.kind = .select
  granted : EveryAt Granted s.log

section Owned

variable {s s' : System} {k : Nat} {c x : Call} {l : List KeyEvent}

/-- A call moves on, with its own broker's mailbox. -/
theorem Owned.update (h : s.Owned) (hk : s.calls[k]? = some c)
    (hcalls : s'.calls = s.calls.set k x) (hlog : s'.log = s.log ++ l)
    (hbroker : x.broker = c.broker) (hselect : x.select = c.select)
    (hkind : x.request.kind = c.request.kind)
    (hbox : ∀ broker,
      (s'.brokers broker).mailbox = (s.brokers broker).mailbox
      ∨ broker = c.broker
        ∧ (c.waiting = true ∨ (s.brokers broker).pending = none))
    (hboxes : ∀ broker, BoxHolds s'.log (s'.brokers broker))
    (hwait : x.waiting = true →
      (c.waiting = true ∨ (s.brokers c.broker).pending = none)
        ∧ (s'.brokers c.broker).pending = some x.request)
    (hselecting : ∀ reply, x.point = .selecting reply →
      x.select = true ∧ .delivered x.request ∈ s'.log)
    (hgranted : EveryAt Granted s'.log) : s'.Owned := by
  -- no other call waits where `c` waits, or where nothing is pending
  have hother : ∀ (k' : Nat) (d : Call), k' ≠ k → s.calls[k']? = some d →
      d.waiting = true → d.broker = c.broker →
      (c.waiting = true ∨ (s.brokers c.broker).pending = none) → False := by
    intro k' d hne hd hdw hdb hor
    rcases hor with hcw | hnone
    · exact hne (h.alone k' k d c hd hk hdw hcw hdb)
    · have hp := h.waits k' d hd hdw
      rw [hdb, hnone] at hp
      cases hp
  refine ⟨?_, ?_, hboxes, ?_, ?_, hgranted⟩
  · intro k' d hd hdw
    rw [hcalls] at hd
    rcases calls_set hk hd with ⟨-, rfl⟩ | ⟨hne, hd⟩
    · rw [hbroker]
      exact (hwait hdw).2
    · rcases hbox d.broker with hsame | ⟨hb, hor⟩
      · exact (congrArg Prod.fst hsame).trans (h.waits k' d hd hdw)
      · exact (hother k' d hne hd hdw hb (hb ▸ hor)).elim
  · intro k₁ k₂ d₁ d₂ h₁ h₂ hw₁ hw₂ hb
    rw [hcalls] at h₁ h₂
    rcases calls_set hk h₁ with ⟨rfl, rfl⟩ | ⟨hne₁, hd₁⟩
    · rcases calls_set hk h₂ with ⟨rfl, -⟩ | ⟨hne₂, hd₂⟩
      · rfl
      · exact (hother k₂ d₂ hne₂ hd₂ hw₂ (hb.symm.trans hbroker)
          (hwait hw₁).1).elim
    · rcases calls_set hk h₂ with ⟨rfl, rfl⟩ | ⟨hne₂, hd₂⟩
      · exact (hother k₁ d₁ hne₁ hd₁ hw₁ (hb.trans hbroker)
          (hwait hw₂).1).elim
      · exact h.alone k₁ k₂ d₁ d₂ hd₁ hd₂ hw₁ hw₂ hb
  · intro k' d reply hd hp
    rw [hcalls] at hd
    rcases calls_set hk hd with ⟨-, rfl⟩ | ⟨-, hd⟩
    · exact hselecting reply hp
    · obtain ⟨hsel, hdel⟩ := h.selecting k' d reply hd hp
      exact ⟨hsel, hlog ▸ List.mem_append_left _ hdel⟩
  · intro k' d hd hsel
    rw [hcalls] at hd
    rcases calls_set hk hd with ⟨-, rfl⟩ | ⟨-, hd⟩
    · rw [hkind]
      exact h.kind k c hk (hselect ▸ hsel)
    · exact h.kind k' d hd hsel

/-- The calls stay, and the mailboxes say nothing new. -/
theorem Owned.quiet (h : s.Owned) (hcalls : s'.calls = s.calls)
    (hlog : s'.log = s.log ++ l)
    (hpending : ∀ broker,
      (s'.brokers broker).pending = (s.brokers broker).pending)
    (hboxes : ∀ broker, BoxHolds s'.log (s'.brokers broker))
    (hes : ∀ e ∈ l, ∀ before, Granted before e) : s'.Owned := by
  refine ⟨?_, ?_, hboxes, ?_, ?_, ?_⟩
  · intro k' d hd hdw
    rw [hcalls] at hd
    exact (hpending d.broker).trans (h.waits k' d hd hdw)
  · rw [hcalls]
    exact h.alone
  · intro k' d reply hd hp
    rw [hcalls] at hd
    obtain ⟨hsel, hdel⟩ := h.selecting k' d reply hd hp
    exact ⟨hsel, hlog ▸ List.mem_append_left _ hdel⟩
  · rw [hcalls]
    exact h.kind
  · rw [hlog]
    exact h.granted.append fun e he _ _ => hes e he _

theorem Owned.retires (h : s.Owned) (hs : s.Retires s' l)
    (hes : ∀ e ∈ l, ∀ before, Granted before e) : s'.Owned := by
  refine h.quiet hs.calls hs.log (fun broker => ?_) (fun broker => ?_) hes
  · exact congrArg Prod.fst (hs.stops broker).2.2
  · rw [hs.log]
    exact (h.boxes broker).frame (hs.stops broker).2.2
      (List.subset_append_left _ _)

/-- A broker's mailbox changes, and the others stay. -/
theorem Owned.boxes_update (h : s.Owned) {b : Broker}
    (hlog : s'.log = s.log ++ l)
    (hbrokers : s'.brokers = Function.update s.brokers broker b)
    (hb : BoxHolds s'.log b) (broker' : Nat) :
    BoxHolds s'.log (s'.brokers broker') := by
  rw [hbrokers]
  by_cases heq : broker' = broker
  · rw [heq, Function.update_self]
    exact hb
  · rw [Function.update_of_ne heq, hlog]
    exact (h.boxes broker').frame rfl (List.subset_append_left _ _)

theorem boxHolds_fresh {b : Broker} (hreply : b.reply = none)
    (hdelivered : b.delivered = false) : BoxHolds log b := by
  unfold BoxHolds
  rw [hreply, hdelivered]
  exact ⟨fun hr => hr, fun _ _ hd => by cases hd⟩

theorem Owned.refuse (h : s.Owned) (hk : s.calls[k]? = some c) :
    (s.giveBack k c none).Owned := by
  refine h.update (l := [.returned c.broker c.request c.userFacing none])
    hk rfl rfl rfl rfl rfl (fun _ => Or.inl rfl) (fun broker => ?_)
    (fun hw => (by cases hw)) (fun reply hp => (by cases hp))
    (everyAt_snoc.mpr ⟨h.granted, trivial⟩)
  exact (h.boxes broker).frame rfl (List.subset_append_left _ _)

theorem Owned.place (h : s.Owned) (hk : s.calls[k]? = some c)
    (env : CallEnv) : (s.place k c env).Owned := by
  unfold System.place
  dsimp only
  split
  · exact h.refuse hk
  · split
    · rename_i hnone
      rw [Option.isNone_iff_eq_none] at hnone
      let request : Request := { c.request with
        id := s.nextRequestId env.skipped }
      refine h.update (l := [.asked request])
        (x := { c with request := request, point := .waking })
        hk rfl rfl rfl rfl rfl (fun broker => ?_)
        (h.boxes_update (l := [.asked request]) rfl rfl
          (boxHolds_fresh rfl rfl))
        (fun _ => ⟨Or.inr hnone, ?_⟩) (fun reply hp => (by cases hp))
        (everyAt_snoc.mpr ⟨h.granted, trivial⟩)
      · by_cases hb : broker = c.broker
        · exact Or.inr ⟨hb, Or.inr (hb ▸ hnone)⟩
        · left
          change (Function.update s.brokers c.broker _ broker).mailbox = _
          rw [Function.update_of_ne hb]
      · change (Function.update s.brokers c.broker _ c.broker).pending = _
        rw [Function.update_self]
        rfl
    · split
      · exact h.refuse hk
      · exact h

theorem Owned.exchange (h : s.Owned) (broker : Nat) (request : Request)
    (userFacing select : Bool) (env : CallEnv)
    (hkind : select = true → request.kind = .select) :
    (s.exchange broker request userFacing select env).Owned := by
  let call : Call := {
    broker := broker
    request := { request with id := 0 }
    userFacing := userFacing
    select := select
    point := .admitting }
  have hcases : ∀ {k : Nat} {d : Call}, (s.calls ++ [call])[k]? = some d →
      s.calls[k]? = some d ∨ d = call := by
    intro k d hd
    rw [List.getElem?_append] at hd
    split at hd
    · exact Or.inl hd
    · exact Or.inr (List.mem_singleton.mp (List.mem_of_getElem? hd))
  have happend : { s with calls := s.calls ++ [call] }.Owned := by
    refine ⟨?_, ?_, h.boxes, ?_, ?_, h.granted⟩
    · intro k' d hd hdw
      rcases hcases hd with hd | rfl
      · exact h.waits k' d hd hdw
      · cases hdw
    · intro k₁ k₂ d₁ d₂ h₁ h₂ hw₁ hw₂ hb
      rcases hcases h₁ with h₁ | rfl
      · rcases hcases h₂ with h₂ | rfl
        · exact h.alone k₁ k₂ d₁ d₂ h₁ h₂ hw₁ hw₂ hb
        · cases hw₂
      · cases hw₁
    · intro k' d reply hd hp
      rcases hcases hd with hd | rfl
      · exact h.selecting k' d reply hd hp
      · cases hp
    · intro k' d hd hsel
      rcases hcases hd with hd | rfl
      · exact h.kind k' d hd hsel
      · exact hkind hsel
  have hk : (s.calls ++ [call])[s.calls.length]? = some call :=
    List.getElem?_concat_length
  unfold System.exchange
  dsimp only
  split
  · exact happend.refuse hk
  · exact happend.place hk env

theorem back_waiting (result : Option Reply) :
    { c with point := c.back result }.waiting = false := by
  cases result with
  | none => rfl
  | some reply =>
    have hback : c.back (some reply) = .selecting reply
        ∨ c.back (some reply) = .returned (some reply) := by
      unfold Call.back
      dsimp only
      split
      · exact Or.inl rfl
      · exact Or.inr rfl
    rcases hback with hb | hb <;> rw [hb] <;> rfl

theorem Owned.answer (h : s.Owned) (hk : s.calls[k]? = some c)
    (hp : c.point = .answering) (env : CallEnv) :
    (s.answer k c env).Owned := by
  have hwait : c.waiting = true := by rw [Call.waiting, hp]
  have hpending := h.waits k c hk hwait
  have hbox : ∀ broker,
      ((s.setBroker c.broker (s.brokers c.broker).clear).brokers
        broker).mailbox = (s.brokers broker).mailbox
      ∨ broker = c.broker
        ∧ (c.waiting = true ∨ (s.brokers broker).pending = none) := by
    intro broker
    by_cases hb : broker = c.broker
    · exact Or.inr ⟨hb, Or.inl hwait⟩
    · left
      change (Function.update s.brokers c.broker _ broker).mailbox = _
      rw [Function.update_of_ne hb]
  unfold System.answer
  dsimp only
  split
  · exact h
  · generalize hresult : (s.brokers c.broker).result c.userFacing = result
    split
    · exact h.update (l := []) (x := { c with point := .dismissing }) hk
        rfl (List.append_nil _).symm rfl rfl rfl hbox
        (h.boxes_update (l := []) (List.append_nil _).symm rfl
          (boxHolds_fresh rfl rfl))
        (fun hw => (by cases hw)) (fun reply hp => (by cases hp)) h.granted
    · refine h.update (l := [.returned c.broker c.request c.userFacing
          result]) hk rfl rfl rfl rfl rfl hbox
        (h.boxes_update (l := [.returned c.broker c.request c.userFacing
          result]) rfl rfl (boxHolds_fresh rfl rfl))
        (fun hw => ?_) (fun reply hpoint => ?_)
        (everyAt_snoc.mpr ⟨h.granted, trivial⟩)
      · rw [back_waiting] at hw
        cases hw
      · cases result with
        | none => cases hpoint
        | some kept =>
          change (if c.select && kept.ok then CallPoint.selecting kept
            else .returned (some kept)) = .selecting reply at hpoint
          split at hpoint
          · rename_i hsel
            rw [Bool.and_eq_true] at hsel
            obtain ⟨hreply, -⟩ := result_eq_some hresult
            obtain ⟨hdelivered, hlogged⟩ := h.boxes c.broker
            rw [hreply] at hdelivered
            exact ⟨hsel.1, List.mem_append_left _
              (hlogged c.request hpending (hdelivered rfl))⟩
          · cases hpoint

theorem Owned.authorize (h : s.Owned) (hk : s.calls[k]? = some c)
    {reply : Reply} (hp : c.point = .selecting reply) :
    (s.authorize k c reply).Owned := by
  obtain ⟨hsel, hdel⟩ := h.selecting k c reply hk hp
  have hmail : ((s.brokers c.broker).authorize reply).mailbox
      = (s.brokers c.broker).mailbox := by
    unfold Broker.authorize
    split <;> rfl
  have hbox := update_keeps (s := s) (P := fun a b => b.mailbox = a.mailbox)
    (fun _ => rfl) (i := c.broker) hmail
  have hboxes : ∀ {log : List KeyEvent}, s.log ⊆ log → ∀ broker,
      BoxHolds log ((s.setBroker c.broker
        ((s.brokers c.broker).authorize reply)).brokers broker) :=
    fun hlog broker => (h.boxes broker).frame (hbox broker) hlog
  unfold System.authorize
  dsimp only
  split
  · exact h.update (l := [])
      (x := { c with point := .returned (some reply) }) hk rfl
      (List.append_nil _).symm rfl rfl rfl
      (fun broker => Or.inl (hbox broker)) (hboxes (List.Subset.refl _))
      (fun hw => (by cases hw)) (fun reply hp => (by cases hp)) h.granted
  · refine h.update (l := [.granted c.broker c.request.id])
      (x := { c with point := .returned (some reply) }) hk rfl
      rfl rfl rfl rfl (fun broker => Or.inl (hbox broker))
      (hboxes (List.subset_append_left _ _))
      (fun hw => (by cases hw)) (fun reply hp => (by cases hp))
      (everyAt_snoc.mpr ⟨h.granted, ?_⟩)
    exact ⟨c.request, rfl, h.kind k c hk hsel, hdel⟩

theorem Owned.resume (h : s.Owned) (k : Nat) (env : CallEnv) :
    (s.resume k env).Owned := by
  unfold System.resume
  split
  · exact h
  · rename_i c hk
    split
    · exact h.place hk env
    · rename_i hp
      have hwait : c.waiting = true := by rw [Call.waiting, hp]
      exact h.update (l := []) (x := { c with point := .answering }) hk rfl
        (List.append_nil _).symm rfl rfl rfl (fun _ => Or.inl rfl) h.boxes
        (fun _ => ⟨Or.inl hwait, h.waits k c hk hwait⟩)
        (fun reply hp => (by cases hp)) h.granted
    · rename_i hp
      exact h.answer hk hp env
    · refine h.update (l := [.dismissed c.request.id,
          .returned c.broker c.request c.userFacing none])
        (x := { c with point := c.back none }) hk rfl ?_ rfl rfl rfl
        (fun _ => Or.inl rfl) (fun broker => ?_) (fun hw => (by cases hw))
        (fun reply hp => (by cases hp)) ?_
      · change (s.log ++ [_]) ++ [_] = _
        rw [List.append_assoc]
        rfl
      · exact (h.boxes broker).frame rfl fun e he =>
          List.mem_append_left _ (List.mem_append_left _ he)
      · exact everyAt_snoc.mpr
          ⟨everyAt_snoc.mpr ⟨h.granted, trivial⟩, trivial⟩
    · rename_i reply hp
      exact h.authorize hk hp
    · exact h

theorem Owned.closeBroker (h : s.Owned) (k : Nat) (r : Retirement) :
    (s.closeBroker k r).Owned := by
  refine h.retires (s.closeBroker_retires k r) fun e he before => ?_
  unfold closeEvents at he
  split at he
  · cases he
  · split at he <;> simp at he
    · rcases he with rfl | rfl <;> trivial
    · subst he
      trivial

theorem Owned.pollNext (h : s.Owned) (k : Nat) : (s.pollNext k).Owned := by
  unfold System.pollNext
  split
  · rename_i broker hk
    split
    · exact h.retires (l := []) (retires_of_eq rfl rfl
        (List.append_nil _).symm rfl) (by simp)
    · rename_i request b hpoll
      obtain ⟨hpending, -, rfl⟩ := poll_eq_some hpoll
      have hsame := update_keeps (s := s)
        (P := fun a b => b.pending = a.pending) (fun _ => rfl)
        (i := broker)
        (b := { s.brokers broker with delivered := true }) rfl
      refine h.quiet (l := [.delivered request]) rfl rfl hsame
        (h.boxes_update (l := [.delivered request]) rfl rfl
          ⟨fun _ => rfl, fun request' hr _ => ?_⟩)
        (by simp [Granted])
      cases hpending.symm.trans hr
      exact List.mem_append_right _ (List.mem_singleton_self _)
  · dsimp only
    split
    · exact h.retires (l := []) (retires_of_eq rfl rfl
        (List.append_nil _).symm rfl) (by simp)
    · exact h.retires (l := [.touched _]) (retires_of_eq rfl rfl rfl rfl)
        (by simp [Granted])
  · exact h

theorem Owned.respond (h : s.Owned) (broker id : Nat) (reply : Reply) :
    (s.respond broker id reply).Owned := by
  unfold System.respond
  split
  · exact h
  · rename_i b hb
    obtain ⟨request, kept, hpending, hdelivered, -, -, -, rfl⟩ :=
      respond_eq_some hb
    have hsame := update_keeps (s := s)
      (P := fun a b => b.pending = a.pending) (fun _ => rfl)
      (i := broker)
      (b := { s.brokers broker with reply := some kept }) rfl
    refine h.quiet (l := [.accepted id reply]) rfl rfl hsame
      (h.boxes_update (l := [.accepted id reply]) rfl rfl
        ⟨fun _ => hdelivered, fun request' hr hd => ?_⟩) (by simp [Granted])
    exact List.mem_append_left _ ((h.boxes broker).2 request' hr hd)

theorem Owned.begin (h : s.Owned) (broker : Nat) : (s.begin broker).Owned := by
  unfold System.begin
  dsimp only
  split
  · exact h
  · have hmail : (s.brokers broker).begin.mailbox
        = (s.brokers broker).mailbox := by
      unfold Broker.begin
      split <;> rfl
    have hsame := update_keeps (s := s)
      (P := fun a b => b.mailbox = a.mailbox) (fun _ => rfl) hmail
    refine h.quiet (l := [.began broker]) rfl rfl
      (fun broker' => congrArg Prod.fst (hsame broker')) (fun broker' => ?_)
      (by simp [Granted])
    exact (h.boxes broker').frame (hsame broker')
      (List.subset_append_left _ _)

theorem Owned.step (h : s.Owned) (op : KeyOp) : (s.step op).Owned := by
  cases op with
  | exchange broker request userFacing env =>
    exact h.exchange broker request userFacing false env
      fun hs => (by cases hs)
  | select broker env => exact h.exchange broker _ true true env fun _ => rfl
  | resume k env => exact h.resume k env
  | attach context =>
    rcases s.attach_retires context with hs | ⟨broker, hs⟩
    · exact h.retires hs (by simp)
    · exact h.retires hs (by simp [Granted])
  | close context => exact h.retires (s.close_retires context) (by simp)
  | detach context =>
    rcases s.detach_retires context with hs | ⟨broker, hs⟩
    · exact h.retires hs (by simp)
    · exact h.retires hs (by simp [Granted])
  | retire k =>
    rcases s.retire_retires k with hs | ⟨broker, hs⟩ | ⟨r, hs⟩
    · exact h.retires hs (by simp)
    · exact h.retires hs (by simp [Granted])
    · change (s.retire k).Owned
      rw [hs]
      exact h.closeBroker k r
  | forget broker =>
    rcases s.forget_retires broker with hs | hs
    · exact h.retires hs (by simp)
    · exact h.retires hs (by simp [Granted])
  | poll =>
    obtain ⟨l, hs, rfl | rfl | ⟨id, rfl⟩⟩ := s.poll_retires
    · exact h.retires hs (by simp)
    · exact h.retires hs (by simp [Granted])
    · exact h.retires hs (by simp [Granted])
  | pollNext k => exact h.pollNext k
  | respond broker id reply => exact h.respond broker id reply
  | released => exact h.retires s.released_retires (by simp [Granted])
  | unauthorize broker =>
    exact h.retires (s.unauthorize_retires broker) (by simp)
  | cancel broker =>
    exact h.retires (s.cancel_retires broker) (by simp [Granted])
  | begin broker => exact h.begin broker
  | touch value => exact h.retires (s.touch_retires value) (by simp)

end Owned

end System

-- =============================== the order

/-- Nothing has reached the watcher. -/
def NotDelivered : KeyEvent → Prop
  | .delivered _ => False
  | _ => True

/-- The watcher has neither received a Release nor reported one. -/
def Unheard (e : KeyEvent) : Prop := e ≠ .release ∧ e ≠ .released

/-- A Release is owed, and the watcher has not heard of it. -/
def Unsettled (before : List KeyEvent) : Prop :=
  ∃ broker, Since (.owed broker) Unheard before

/-- A Release is posted, and the watcher has not heard of it. -/
def Flagged (before : List KeyEvent) : Prop :=
  ∃ broker, Since (.posted broker) Unheard before

/-- What is required of an event, given those before it. -/
def Ordered (before : List KeyEvent) : KeyEvent → Prop
  | .delivered _ =>
    (∀ broker, .removed broker ∈ before → .closed broker ∈ before)
      ∧ ¬ Unsettled before ∧ ¬ Flagged before
  | .posted broker => Since (.owed broker) NotDelivered before
  | _ => True

/-- The broker is out of the registry, or its key is given up, and its
Release is not posted. -/
def Retirement.onWay (r : Retirement) : Bool :=
  r.point = .posting
    || r.point = .closing && (r.kind = .attach || r.kind = .detach)

def PollPoint.asks : PollPoint → Bool
  | .asking _ => true
  | _ => false

/-- The events the order is not about. -/
def KeyEvent.aside : KeyEvent → Bool
  | .delivered _ | .owed _ | .posted _ | .release | .released
  | .removed _ | .closed _ => false
  | _ => true

namespace System

/-- A Release is on its way. -/
def inTransit (s : System) : Bool := s.retirements.any Retirement.onWay

/-- A `Poll` has looked for a Release, and has yet to ask its broker. -/
def asking (s : System) : Bool := s.polls.any PollPoint.asks

/-- The flag of the session. -/
def release (s : System) : Bool := (s.session.getD {}).release

/-- A `Poll` and a Release on its way overlap. -/
def Clash (s : System) : Prop := s.asking = true ∧ s.inTransit = true

instance (s : System) : Decidable s.Clash :=
  inferInstanceAs (Decidable (_ ∧ _))

/-- Where an owed Release is. -/
structure Ready (s : System) : Prop where
  owed : Unsettled s.log →
    s.release = true ∨ ∃ r ∈ s.retirements, r.point = .posting
  flagged : Flagged s.log → s.release = true
  asks : s.asking = true → s.release = false
  removed : ∀ broker, .removed broker ∈ s.log → .closed broker ∈ s.log
    ∨ ∃ r ∈ s.retirements, r.broker = broker ∧ r.point = .closing
      ∧ r.onWay = true
  closed : ∀ broker, (s.brokers broker).closed = true →
    .closed broker ∈ s.log
  posting : ∀ r ∈ s.retirements, r.point = .posting →
    Since (.owed r.broker) NotDelivered s.log
  ordered : EveryAt Ordered s.log

variable {e : KeyEvent}

section Ready

variable {s s' : System} {l : List KeyEvent}

theorem unsettled_left (h : Unsettled (log ++ l))
    (hes : ∀ broker, .owed broker ∉ l) : Unsettled log :=
  h.imp fun broker hsince => hsince.left (hes broker)

theorem flagged_left (h : Flagged (log ++ l))
    (hes : ∀ broker, .posted broker ∉ l) : Flagged log :=
  h.imp fun broker hsince => hsince.left (hes broker)

/-- The watcher hears of a Release. -/
theorem settled_snoc (he : e = .release ∨ e = .released) :
    ¬ Unsettled (log ++ [e]) ∧ ¬ Flagged (log ++ [e]) := by
  have hheard : ¬ Unheard e := by
    rintro ⟨hne, hne'⟩
    exact he.elim hne hne'
  constructor
  · rintro ⟨broker, hsince⟩
    rcases since_snoc hsince with heq | ⟨-, hunheard⟩
    · rcases he with rfl | rfl <;> cases heq
    · exact hheard hunheard
  · rintro ⟨broker, hsince⟩
    rcases since_snoc hsince with heq | ⟨-, hunheard⟩
    · rcases he with rfl | rfl <;> cases heq
    · exact hheard hunheard

/-- A step that leaves what is owed where it is. -/
theorem Ready.frame (h : s.Ready) (hlog : s'.log = s.log ++ l)
    (hes : ∀ e ∈ l, e.aside = true) (hrelease : s'.release = s.release)
    (hretirements : s'.retirements = s.retirements)
    (hasking : s'.asking = true → s.asking = true)
    (hclosed : ∀ broker, (s'.brokers broker).closed = true →
      (s.brokers broker).closed = true) : s'.Ready := by
  have hnot : ∀ {e : KeyEvent}, e.aside = false → e ∉ l := by
    intro e he hm
    rw [hes e hm] at he
    cases he
  have hmem : ∀ {e : KeyEvent}, e ∈ s.log → e ∈ s'.log := fun he =>
    hlog ▸ List.mem_append_left _ he
  have hdelivered : ∀ e ∈ l, NotDelivered e := by
    intro e he
    cases e with
    | delivered request => exact absurd he (hnot rfl)
    | _ => trivial
  constructor
  · intro hunsettled
    rw [hlog] at hunsettled
    rw [hrelease, hretirements]
    exact h.owed (unsettled_left hunsettled fun _ => hnot rfl)
  · intro hflagged
    rw [hlog] at hflagged
    rw [hrelease]
    exact h.flagged (flagged_left hflagged fun _ => hnot rfl)
  · intro hask
    rw [hrelease]
    exact h.asks (hasking hask)
  · intro broker hm
    rw [hretirements]
    rw [hlog] at hm
    rcases List.mem_append.mp hm with hm | hm
    · exact (h.removed broker hm).imp_left hmem
    · exact absurd hm (hnot rfl)
  · exact fun broker hc => hmem (h.closed broker (hclosed broker hc))
  · intro r hr hp
    rw [hlog]
    rw [hretirements] at hr
    exact (h.posting r hr hp).append hdelivered
  · rw [hlog]
    refine h.ordered.append fun e he pre _ => ?_
    have haside := hes e he
    cases e <;> trivial

theorem post_release {update : Session → Session}
    (h : ∀ x, (update x).release = x.release) :
    (s.post update).release = s.release := by
  unfold System.release System.post
  cases s.session with
  | none => rfl
  | some session => exact h session

theorem Ready.talks (h : s.Ready) (ht : s.Talks s') : s'.Ready := by
  obtain ⟨l, hlog, hes⟩ := ht.log
  refine h.frame hlog (fun e he => ?_) ?_ ht.retirements ?_ fun broker hc => ?_
  · have htalk := hes e he
    cases e <;> first | rfl | cases htalk
  · unfold System.release
    rw [ht.session]
  · unfold System.asking
    rw [ht.polls]
    exact id
  · rw [ht.closed] at hc
    exact hc

variable {r : Retirement} {k : Nat}

/-- A broker is given up, and is still to be closed. -/
theorem Ready.giveUp (h : s.Ready) (hp : r.point = .closing)
    (hretirements : s'.retirements
      = s.retirements ++ [r]) (hlog : s'.log = s.log
      ∨ r.onWay = true ∧ s'.log = s.log ++ [.removed r.broker])
    (hrelease : s'.release = s.release) (hpolls : s'.polls = s.polls)
    (hbrokers : s'.brokers = s.brokers) : s'.Ready := by
  obtain ⟨l, hes, hlog'⟩ : ∃ l : List KeyEvent,
      (l = [] ∨ r.onWay = true ∧ l = [.removed r.broker])
        ∧ s'.log = s.log ++ l := by
    rcases hlog with hlog | ⟨hway, hlog⟩
    · exact ⟨[], Or.inl rfl, by rw [hlog, List.append_nil]⟩
    · exact ⟨_, Or.inr ⟨hway, rfl⟩, hlog⟩
  have hmem : ∀ {e : KeyEvent}, e ∈ s.log → e ∈ s'.log := fun he =>
    hlog' ▸ List.mem_append_left _ he
  have hkeep : ∀ {r' : Retirement}, r' ∈ s.retirements →
      r' ∈ s'.retirements := fun hr =>
    hretirements ▸ List.mem_append_left _ hr
  constructor
  · intro hunsettled
    rw [hlog'] at hunsettled
    rw [hrelease]
    have hold := unsettled_left hunsettled fun broker => by
      rcases hes with rfl | ⟨-, rfl⟩ <;> simp
    exact (h.owed hold).imp_right fun ⟨r', hr', hp'⟩ => ⟨r', hkeep hr', hp'⟩
  · intro hflagged
    rw [hlog'] at hflagged
    rw [hrelease]
    exact h.flagged (flagged_left hflagged fun broker => by
      rcases hes with rfl | ⟨-, rfl⟩ <;> simp)
  · unfold System.asking
    rw [hrelease, hpolls]
    exact h.asks
  · intro broker hm
    rw [hlog'] at hm
    rcases List.mem_append.mp hm with hm | hm
    · rcases h.removed broker hm with hc | ⟨r', hr', hrest⟩
      · exact Or.inl (hmem hc)
      · exact Or.inr ⟨r', hkeep hr', hrest⟩
    · rcases hes with rfl | ⟨hway, rfl⟩
      · cases hm
      · cases List.mem_singleton.mp hm
        refine Or.inr ⟨r, ?_, rfl, hp, hway⟩
        rw [hretirements]
        exact List.mem_append_right _ (List.mem_singleton_self _)
  · rw [hbrokers]
    exact fun broker hc => hmem (h.closed broker hc)
  · intro r' hr' hp'
    rw [hretirements] at hr'
    rw [hlog']
    rcases List.mem_append.mp hr' with hr' | hr'
    · refine (h.posting r' hr' hp').append fun e he => ?_
      rcases hes with rfl | ⟨-, rfl⟩
      · cases he
      · cases List.mem_singleton.mp he
        trivial
    · cases List.mem_singleton.mp hr'
      rw [hp] at hp'
      cases hp'
  · rw [hlog']
    refine h.ordered.append fun e he _ _ => ?_
    rcases hes with rfl | ⟨-, rfl⟩
    · cases he
    · cases List.mem_singleton.mp he
      trivial

theorem mem_set_of_ne {l : List Retirement} {a x : Retirement}
    (hk : l[k]? = some a) (hr : r ∈ l) (hne : r ≠ a) : r ∈ l.set k x := by
  obtain ⟨i, hi⟩ := List.mem_iff_getElem?.mp hr
  have hik : k ≠ i := by
    rintro rfl
    rw [hk] at hi
    exact hne (Option.some.inj hi).symm
  rw [List.mem_iff_getElem?]
  exact ⟨i, by rw [List.getElem?_set_ne hik, hi]⟩

/-- `Close` takes what the broker holds, and owes a Release for it. -/
theorem Ready.closeBroker (h : s.Ready) (hk : s.retirements[k]? = some r)
    (hp : r.point = .closing) : (s.closeBroker k r).Ready := by
  let b := s.brokers r.broker
  let point := if b.close.2 then RetirePoint.posting
    else RetireKind.after r.kind
  have hretirements : (s.closeBroker k r).retirements
      = s.retirements.set k { r with point := point } := rfl
  have hlog : (s.closeBroker k r).log
      = s.log ++ closeEvents b r.broker := rfl
  have hmem : ∀ {e : KeyEvent}, e ∈ s.log → e ∈ (s.closeBroker k r).log :=
    fun he => hlog ▸ List.mem_append_left _ he
  have hlt := (List.getElem?_eq_some_iff.mp hk).1
  -- the closing is logged, now or before
  have hclosed : .closed r.broker ∈ (s.closeBroker k r).log := by
    by_cases hc : b.closed = true
    · exact hmem (h.closed r.broker hc)
    · rw [hlog]
      apply List.mem_append_right
      unfold closeEvents
      rw [if_neg hc]
      split <;> simp
  have hposting : ∀ {r' : Retirement}, r' ∈ s.retirements →
      r'.point = .posting → r' ∈ (s.closeBroker k r).retirements := by
    intro r' hr' hp'
    apply mem_set_of_ne hk hr'
    rintro rfl
    rw [hp] at hp'
    cases hp'
  have howed : point = .posting →
      closeEvents b r.broker = [.closed r.broker, .owed r.broker] := by
    intro hpoint
    have hclose : b.close.2 = true := by
      by_contra hclose
      have hafter : point = RetireKind.after r.kind := if_neg hclose
      rw [hafter] at hpoint
      unfold RetireKind.after at hpoint
      split at hpoint <;> cases hpoint
    unfold Broker.close at hclose
    unfold closeEvents
    by_cases hc : b.closed = true
    · rw [if_pos hc] at hclose
      cases hclose
    · rw [if_neg hc] at hclose ⊢
      rw [if_pos hclose]
  have hquiet : ∀ e ∈ closeEvents b r.broker,
      (∃ broker, e = .closed broker) ∨ e = .owed r.broker := by
    intro e he
    unfold closeEvents at he
    split at he
    · cases he
    · split at he <;> simp at he
      · exact he.imp (fun heq => ⟨_, heq⟩) id
      · exact Or.inl ⟨_, he⟩
  constructor
  · intro hunsettled
    rw [hlog] at hunsettled
    by_cases hpoint : point = .posting
    · right
      exact ⟨{ r with point := point },
        List.mem_set hlt _, hpoint⟩
    · have hold := unsettled_left hunsettled fun broker hm => by
        rcases hquiet _ hm with ⟨broker', heq⟩ | heq
        · cases heq
        · -- an owed Release is posted next
          apply hpoint
          unfold closeEvents at hm
          split at hm
          · cases hm
          · rename_i hc
            split at hm
            · rename_i hholds
              have hclose : b.close.2 = true := by
                unfold Broker.close
                rw [if_neg hc]
                exact hholds
              exact if_pos hclose
            · simp at hm
      exact (h.owed hold).imp_right fun ⟨r', hr', hp'⟩ =>
        ⟨r', hposting hr' hp', hp'⟩
  · intro hflagged
    rw [hlog] at hflagged
    refine h.flagged (flagged_left hflagged fun broker hm => ?_)
    rcases hquiet _ hm with ⟨broker', heq⟩ | heq <;> cases heq
  · exact h.asks
  · intro broker hm
    rw [hlog] at hm
    rcases List.mem_append.mp hm with hm | hm
    · rcases h.removed broker hm with hc | ⟨r', hr', hb', hp', hway⟩
      · exact Or.inl (hmem hc)
      · by_cases heq : r' = r
        · left
          rw [← hb', heq]
          exact hclosed
        · exact Or.inr ⟨r', mem_set_of_ne hk hr' heq, hb', hp', hway⟩
    · rcases hquiet _ hm with ⟨broker', heq⟩ | heq <;> cases heq
  · intro broker hc
    by_cases hb : broker = r.broker
    · rw [hb]
      exact hclosed
    · apply hmem
      apply h.closed broker
      change (Function.update s.brokers r.broker _ broker).closed = true at hc
      rwa [Function.update_of_ne hb] at hc
  · intro r' hr' hp'
    rw [hlog]
    rcases List.mem_or_eq_of_mem_set hr' with hr' | rfl
    · refine (h.posting r' hr' hp').append fun e he => ?_
      rcases hquiet e he with ⟨broker', rfl⟩ | rfl <;> trivial
    · rw [howed hp']
      exact ⟨s.log ++ [.closed r.broker], [], by simp,
        fun _ he => by cases he⟩
  · rw [hlog]
    refine h.ordered.append fun e he _ _ => ?_
    rcases hquiet e he with ⟨broker', rfl⟩ | rfl <;> trivial

/-- `Forget` owes a Release for the key it drops. -/
theorem Ready.forget (h : s.Ready) (broker : Nat) :
    (s.forget broker).Ready := by
  have hsame := update_keeps (s := s)
    (P := fun a b => b.closed = a.closed) (fun _ => rfl) (i := broker)
    (b := (s.brokers broker).forget.1) (by unfold Broker.forget; split <;> rfl)
  unfold System.forget
  dsimp only
  split
  · have hmem : ∀ {e : KeyEvent}, e ∈ s.log →
        e ∈ s.log ++ [.owed broker] := fun he => List.mem_append_left _ he
    let r : Retirement :=
      { broker := broker, kind := .forget, point := .posting }
    constructor
    · exact fun _ => Or.inr
        ⟨r, List.mem_append_right _ (List.mem_singleton_self _), rfl⟩
    · exact fun hflagged => h.flagged
        (flagged_left (l := [.owed broker]) hflagged (by simp))
    · exact h.asks
    · intro broker' hm
      rcases List.mem_append.mp hm with hm | hm
      · rcases h.removed broker' hm with hc | ⟨r', hr', hrest⟩
        · exact Or.inl (hmem hc)
        · exact Or.inr ⟨r', List.mem_append_left _ hr', hrest⟩
      · simp at hm
    · intro broker' hc
      exact hmem (h.closed broker' ((hsame broker').symm.trans hc))
    · intro r' hr' hp'
      rcases List.mem_append.mp hr' with hr' | hr'
      · exact (h.posting r' hr' hp').snoc trivial
      · cases List.mem_singleton.mp hr'
        exact since_self
    · exact everyAt_snoc.mpr ⟨h.ordered, trivial⟩
  · exact h.frame (l := []) (List.append_nil _).symm (by simp) rfl rfl id
      fun broker' hc => (hsame broker').symm.trans hc

/-- The Release is in the session's flag; no `Poll` has looked past it. -/
theorem Ready.postRelease (h : s.Ready) (hslot : s.Slot) (hclash : ¬ s.Clash)
    (hk : s.retirements[k]? = some r) (hp : r.point = .posting) :
    (s.postRelease k r).Ready := by
  obtain ⟨session, hsession, -⟩ := hslot
  have hrmem := List.mem_of_getElem? hk
  have hflag : (s.postRelease k r).release = true := by
    unfold System.release System.postRelease System.post
    rw [hsession]
    rfl
  have hway : s.inTransit = true :=
    List.any_eq_true.mpr ⟨r, hrmem, by rw [Retirement.onWay, hp]; rfl⟩
  have hmem : ∀ {e : KeyEvent}, e ∈ s.log →
      e ∈ s.log ++ [.posted r.broker] := fun he => List.mem_append_left _ he
  constructor
  · exact fun _ => Or.inl hflag
  · exact fun _ => hflag
  · exact fun hask => absurd ⟨hask, hway⟩ hclash
  · intro broker hm
    rcases List.mem_append.mp hm with hm | hm
    · rcases h.removed broker hm with hc | ⟨r', hr', hb', hp', hway'⟩
      · exact Or.inl (hmem hc)
      · refine Or.inr ⟨r', mem_set_of_ne hk hr' ?_, hb', hp', hway'⟩
        rintro rfl
        rw [hp] at hp'
        cases hp'
    · simp at hm
  · exact fun broker hc => hmem (h.closed broker hc)
  · intro r' hr' hp'
    rcases List.mem_or_eq_of_mem_set hr' with hr' | rfl
    · exact (h.posting r' hr' hp').snoc trivial
    · change RetireKind.after r.kind = _ at hp'
      unfold RetireKind.after at hp'
      split at hp' <;> cases hp'
  · exact everyAt_snoc.mpr ⟨h.ordered, h.posting r hrmem hp⟩

theorem Ready.retire (h : s.Ready) (hslot : s.Slot) (hclash : ¬ s.Clash)
    (k : Nat) : (s.retire k).Ready := by
  unfold System.retire
  split
  · exact h
  · rename_i r hk
    split
    · rename_i hp
      exact h.closeBroker hk hp
    · rename_i hp
      exact h.postRelease hslot hclash hk hp
    · rename_i hp
      rw [hslot.prune]
      constructor
      · refine fun hunsettled => (h.owed hunsettled).imp_right ?_
        rintro ⟨r', hr', hp'⟩
        refine ⟨r', mem_set_of_ne hk hr' ?_, hp'⟩
        rintro rfl
        rw [hp] at hp'
        cases hp'
      · exact h.flagged
      · exact h.asks
      · refine fun broker hm => (h.removed broker hm).imp_right ?_
        rintro ⟨r', hr', hb', hp', hway⟩
        refine ⟨r', mem_set_of_ne hk hr' ?_, hb', hp', hway⟩
        rintro rfl
        rw [hp] at hp'
        cases hp'
      · exact h.closed
      · intro r' hr' hp'
        rcases List.mem_or_eq_of_mem_set hr' with hr' | rfl
        · exact h.posting r' hr' hp'
        · cases hp'
      · exact h.ordered
    · exact h

/-- The watcher hears of a Release, or reports one. -/
theorem Ready.hear (h : s.Ready) (he : e = .release ∨ e = .released) :
    ((s.post fun session => { session with release := false }).note
      e).Ready := by
  have hflag : ((s.post fun session =>
      { session with release := false }).note e).release = false := by
    change (s.post _).release = false
    unfold System.release System.post
    cases s.session with
    | none => rfl
    | some session => rfl
  have hmem : ∀ {e' : KeyEvent}, e' ∈ s.log → e' ∈ s.log ++ [e] :=
    fun he' => List.mem_append_left _ he'
  constructor
  · exact fun hunsettled => absurd hunsettled (settled_snoc he).1
  · exact fun hflagged => absurd hflagged (settled_snoc he).2
  · exact fun _ => hflag
  · intro broker hm
    rcases List.mem_append.mp hm with hm | hm
    · exact (h.removed broker hm).imp_left hmem
    · rcases he with rfl | rfl <;> simp at hm
  · exact fun broker hc => hmem (h.closed broker hc)
  · intro r hr hp
    refine (h.posting r hr hp).snoc ?_
    rcases he with rfl | rfl <;> trivial
  · refine everyAt_snoc.mpr ⟨h.ordered, ?_⟩
    rcases he with rfl | rfl <;> trivial

theorem Ready.poll (h : s.Ready) : s.poll.Ready := by
  unfold System.poll
  dsimp only
  split
  · exact h.hear (Or.inl rfl)
  · rename_i hflag
    split
    · rename_i id hid
      refine h.frame (l := [.taken id]) rfl (by simp [KeyEvent.aside]) ?_ rfl
        (fun hask => hask) fun _ hc => hc
      exact post_release (s := s) fun _ => rfl
    · constructor
      · exact h.owed
      · exact h.flagged
      · exact fun _ => Bool.not_eq_true _ ▸ hflag
      · exact h.removed
      · exact h.closed
      · exact h.posting
      · exact h.ordered

theorem asking_set {point : PollPoint} (hpoint : point.asks = false)
    (h : (s.polls.set k point).any PollPoint.asks = true) :
    s.asking = true := by
  obtain ⟨p, hp, hasks⟩ := List.any_eq_true.mp h
  rcases List.mem_or_eq_of_mem_set hp with hp | rfl
  · exact List.any_eq_true.mpr ⟨p, hp, hasks⟩
  · rw [hpoint] at hasks
    cases hasks

theorem Ready.pollNext (h : s.Ready) (hclash : ¬ s.Clash) (k : Nat) :
    (s.pollNext k).Ready := by
  unfold System.pollNext
  split
  · rename_i broker hk
    have hask : s.asking = true :=
      List.any_eq_true.mpr ⟨_, List.mem_of_getElem? hk, rfl⟩
    split
    · exact h.frame (l := []) (List.append_nil _).symm (by simp) rfl rfl
        (fun hasks => asking_set rfl hasks) fun _ hc => hc
    · rename_i request b hpoll
      obtain ⟨hpending, -, rfl⟩ := poll_eq_some hpoll
      have hflag := h.asks hask
      have hstill : ∀ r ∈ s.retirements, r.onWay = false := by
        intro r hr
        by_contra hway
        rw [Bool.not_eq_false] at hway
        exact hclash ⟨hask, List.any_eq_true.mpr ⟨r, hr, hway⟩⟩
      have hposting : ∀ r ∈ s.retirements, r.point ≠ .posting := by
        intro r hr hp
        have hway := hstill r hr
        rw [Retirement.onWay, hp] at hway
        cases hway
      have hsame := update_keeps (s := s)
        (P := fun a b => b.closed = a.closed) (fun _ => rfl)
        (i := broker)
        (b := { s.brokers broker with delivered := true }) rfl
      have hunsettled : ¬ Unsettled s.log := by
        intro hunsettled
        rcases h.owed hunsettled with hrelease | ⟨r, hr, hp⟩
        · rw [hflag] at hrelease
          cases hrelease
        · exact hposting r hr hp
      have hflagged : ¬ Flagged s.log := by
        intro hflagged
        rw [h.flagged hflagged] at hflag
        cases hflag
      have hmem : ∀ {e : KeyEvent}, e ∈ s.log →
          e ∈ s.log ++ [.delivered request] :=
        fun he => List.mem_append_left _ he
      have hremoved : ∀ broker, .removed broker ∈ s.log →
          .closed broker ∈ s.log := by
        intro broker hm
        rcases h.removed broker hm with hc | ⟨r, hr, -, -, hway⟩
        · exact hc
        · rw [hstill r hr] at hway
          cases hway
      constructor
      · exact fun hu => absurd (unsettled_left
          (l := [.delivered request]) hu (by simp)) hunsettled
      · exact fun hf => absurd (flagged_left
          (l := [.delivered request]) hf (by simp)) hflagged
      · exact fun _ => hflag
      · intro broker' hm
        rcases List.mem_append.mp hm with hm | hm
        · exact Or.inl (hmem (hremoved broker' hm))
        · simp at hm
      · intro broker' hc
        exact hmem (h.closed broker' ((hsame broker').symm.trans hc))
      · exact fun r hr hp => absurd hp (hposting r hr)
      · exact everyAt_snoc.mpr
          ⟨h.ordered, hremoved, hunsettled, hflagged⟩
  · dsimp only
    split
    · exact h.frame (l := []) (List.append_nil _).symm (by simp) rfl rfl
        (fun hasks => asking_set rfl hasks) fun _ hc => hc
    · refine h.frame (l := [.touched _]) rfl (by simp [KeyEvent.aside]) ?_
        rfl (fun hasks => asking_set rfl hasks) fun _ hc => hc
      exact post_release (s := s) fun _ => rfl
  · exact h

theorem Ready.attach (h : s.Ready) (context : Nat) :
    (s.attach context).Ready := by
  have hrelease : ((some (s.session.getD {})).getD {}).release = s.release :=
    rfl
  unfold System.attach
  split
  · exact h
  · dsimp only
    split
    · exact h.frame (l := []) (List.append_nil _).symm (by simp) hrelease
        rfl id fun _ hc => hc
    · rename_i broker hb
      exact h.giveUp (r := { broker := broker, kind := .attach }) rfl rfl
        (Or.inr ⟨rfl, rfl⟩) hrelease rfl rfl

/-- Every step that overlaps nothing keeps the order. -/
theorem Ready.step (h : s.Ready) (hslot : s.Slot) (op : KeyOp)
    (hclash : ¬ s.Clash) : (s.step op).Ready := by
  cases op with
  | exchange broker request userFacing env =>
    exact h.talks (s.exchange_talks env broker request userFacing false)
  | select broker env =>
    exact h.talks (s.exchange_talks env broker _ true true)
  | resume k env =>
    cases hk : s.calls[k]? with
    | none =>
      change (s.resume k env).Ready
      unfold System.resume
      rw [hk]
      exact h
    | some c =>
      by_cases hp : c.point = .dismissing
      · change (s.resume k env).Ready
        unfold System.resume
        rw [hk]
        dsimp only
        rw [hp]
        refine h.frame (l := [.dismissed c.request.id,
          .returned c.broker c.request c.userFacing none]) ?_
          (by simp [KeyEvent.aside]) ?_ rfl id fun _ hc => hc
        · change (s.log ++ [_]) ++ [_] = _
          rw [List.append_assoc]
          rfl
        · exact post_release (s := s) fun _ => rfl
      · exact h.talks (s.resume_talks k c env hk hp)
  | attach context => exact h.attach context
  | close context =>
    change (s.close context).Ready
    unfold System.close
    split
    · exact h
    · rename_i broker hb
      exact h.giveUp (r := { broker := broker, kind := .close }) rfl rfl
        (Or.inl rfl) rfl rfl rfl
  | detach context =>
    change (s.detach context).Ready
    unfold System.detach
    split
    · exact h
    · rename_i broker hb
      exact h.giveUp (r := { broker := broker, kind := .detach }) rfl rfl
        (Or.inr ⟨rfl, rfl⟩) rfl rfl rfl
  | retire k => exact h.retire hslot hclash k
  | forget broker => exact h.forget broker
  | poll => exact h.poll
  | pollNext k => exact h.pollNext hclash k
  | respond broker id reply =>
    exact h.talks (s.respond_talks broker id reply)
  | released => exact h.hear (Or.inr rfl)
  | unauthorize broker =>
    have hsame := update_keeps (s := s)
      (P := fun a b => b.closed = a.closed) (fun _ => rfl)
      (i := broker) (b := (s.brokers broker).unauthorize) rfl
    exact h.frame (l := []) (List.append_nil _).symm (by simp) rfl rfl id
      fun broker' hc => (hsame broker').symm.trans hc
  | cancel broker =>
    have hsame := update_keeps (s := s)
      (P := fun a b => b.closed = a.closed) (fun _ => rfl)
      (i := broker) (b := (s.brokers broker).cancel) rfl
    exact h.frame (l := [.cancelled broker]) rfl (by simp [KeyEvent.aside])
      rfl rfl id fun broker' hc => (hsame broker').symm.trans hc
  | begin broker =>
    change (s.begin broker).Ready
    unfold System.begin
    dsimp only
    split
    · exact h
    · have hsame := update_keeps (s := s)
        (P := fun a b => b.closed = a.closed) (fun _ => rfl)
        (i := broker) (b := (s.brokers broker).begin)
        (by unfold Broker.begin; split <;> rfl)
      exact h.frame (l := [.began broker]) rfl (by simp [KeyEvent.aside])
        rfl rfl id fun broker' hc => (hsame broker').symm.trans hc
  | touch value =>
    refine h.frame (l := []) (List.append_nil _).symm (by simp) ?_ rfl id
      fun _ hc => hc
    exact post_release (s := s) fun _ => rfl

end Ready

/-- What the watcher receives, given what happened before. A Select is
received when every broker removed before is closed and every Release
owed before is settled. Between a Release that becomes owed and the
watcher receiving it, no authorization is given but on a Select received
before. -/
def InOrder (before : List KeyEvent) : KeyEvent → Prop
  | .delivered request => request.kind = .select →
      (∀ broker, .removed broker ∈ before → .closed broker ∈ before)
        ∧ ∀ p broker q, before = p ++ .owed broker :: q →
          .release ∈ q ∨ .released ∈ q
  | .release => ∀ p broker owed posted,
      before = p ++ .owed broker :: (owed ++ .posted broker :: posted) →
      .owed broker ∉ owed → .release ∉ posted → .released ∉ posted →
      ∀ broker' id, .granted broker' id ∈ owed ++ posted →
        ∃ request, request.id = id ∧ request.kind = .select
          ∧ .delivered request ∈ p
  | _ => True

/-- What is not settled is followed by neither of its settlements. -/
theorem heard_of_settled {before p q : List KeyEvent}
    (hbefore : before = p ++ e :: q) (he : e = .owed broker ∧ ¬ Unsettled before
      ∨ e = .posted broker ∧ ¬ Flagged before) :
    .release ∈ q ∨ .released ∈ q := by
  by_contra hnone
  rw [not_or] at hnone
  have hsince : Since e Unheard before := by
    refine ⟨p, q, hbefore, fun e' he' => ⟨?_, ?_⟩⟩
    · rintro rfl
      exact hnone.1 he'
    · rintro rfl
      exact hnone.2 he'
  rcases he with ⟨rfl, hsettled⟩ | ⟨rfl, hsettled⟩
  · exact hsettled ⟨broker, hsince⟩
  · exact hsettled ⟨broker, hsince⟩

/-- Where a Release is owed and then posted, nothing is delivered in
between, nor before the watcher hears of it. -/
theorem not_delivered_of_owed {p owed posted : List KeyEvent}
    (h : EveryAt Ordered log)
    (hlog : log = p ++ .owed broker :: (owed ++ .posted broker :: posted))
    (howed : .owed broker ∉ owed) (hrelease : .release ∉ posted)
    (hreleased : .released ∉ posted) (request : Request) :
    .delivered request ∉ owed ++ .posted broker :: posted := by
  intro hm
  rcases List.mem_append.mp hm with hm | hm
  · obtain ⟨pre, since, hpre, hquiet⟩ :
        Since (.owed broker) NotDelivered (p ++ .owed broker :: owed) :=
      h (p ++ .owed broker :: owed) (.posted broker) posted
        (by rw [hlog]; simp)
    exact hquiet _ (mem_of_last hpre howed hm)
  · rcases List.mem_cons.mp hm with heq | hm
    · cases heq
    · obtain ⟨q, q', rfl⟩ := List.append_of_mem hm
      obtain ⟨-, -, hflagged⟩ : Ordered
          ((p ++ .owed broker :: owed) ++ .posted broker :: q)
          (.delivered request) := h _ _ q' (by rw [hlog]; simp)
      rcases heard_of_settled rfl (Or.inr ⟨rfl, hflagged⟩) with hr | hr
      · exact hrelease (List.mem_append_left _ hr)
      · exact hreleased (List.mem_append_left _ hr)

theorem inOrder_of_ordered (hordered : EveryAt Ordered log)
    (hgranted : EveryAt Granted log) : EveryAt InOrder log := by
  intro pre e post hlog
  cases e with
  | delivered request =>
    intro _
    obtain ⟨hremoved, hsettled, -⟩ := hordered pre _ post hlog
    exact ⟨hremoved, fun p broker q hp =>
      heard_of_settled hp (Or.inl ⟨rfl, hsettled⟩)⟩
  | release =>
    rintro p broker owed posted rfl howed hrelease hreleased broker' id hm
    have hquiet := not_delivered_of_owed
      (hlog ▸ hordered : EveryAt Ordered (_ ++ _)).left rfl howed hrelease
      hreleased
    -- the Select of the authorization is somewhere before it
    have hm' : .granted broker' id ∈ owed ++ .posted broker :: posted := by
      rcases List.mem_append.mp hm with hm | hm
      · exact List.mem_append_left _ hm
      · exact List.mem_append_right _ (List.mem_cons_of_mem _ hm)
    obtain ⟨q, q', hq⟩ := List.append_of_mem hm'
    obtain ⟨request, hid, hkind, hdelivered⟩ :=
      hgranted (p ++ .owed broker :: q) (.granted broker' id)
        (q' ++ .release :: post) (by rw [hlog, hq]; simp)
    refine ⟨request, hid, hkind, ?_⟩
    rcases List.mem_append.mp hdelivered with hd | hd
    · exact hd
    · rcases List.mem_cons.mp hd with heq | hd
      · cases heq
      · exact absurd (hq ▸ List.mem_append_left _ hd) (hquiet request)
  | _ => trivial

theorem owned_watched : watched.Owned := by
  constructor <;> simp [watched, BoxHolds]

theorem ready_watched : watched.Ready := by
  constructor <;> simp [watched, Unsettled, Flagged, Since, asking]

/-- A key is selected, and its broker is replaced. -/
def replaced : List KeyOp :=
  [.attach 1, .select 0 {}, .resume 0 {}, .poll, .pollNext 0,
    .respond 0 1 { ok := true }, .resume 0 {}, .resume 0 {}, .attach 1,
    .retire 0, .retire 0]

/-- The new broker asks for a key, and the watcher finds the Release
first. -/
def selectedAgain : List KeyOp :=
  replaced ++ [.select 1 {}, .resume 1 {}, .poll, .poll, .pollNext 1]

/-- The watcher has reported the Release that was owed. -/
def reported : List KeyOp :=
  replaced ++ [.released, .select 1 {}, .resume 1 {}, .poll, .pollNext 1]

end System

end RemoteDesk.SecurityKey
