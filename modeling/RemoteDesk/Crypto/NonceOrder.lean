/-
Order and replay safety of the crypto channel.

A run interleaves the sending half (direct sends, the hand-over, the
writer thread's turns) with receives whose frames an adversary chooses.
`ChannelTrace` records every sealing and every plaintext `recv`
returned, with the counter it opened under.

# What holds

Counters opened under strictly increase (`OrderSafe.increasing`), every
plaintext returned was sealed under that counter
(`OrderSafe.authentic`), and a counter is sealed under a second time
only after the write of every earlier frame under it failed
(`OrderSafe.fresh`): the counter advances on a successful write only.

# Assumptions

The box is ideal for the run (`Ideal`): what opens under a nonce was
sealed under it. And the counter stays clear of its wrap by the
resynchronisation window (`Guarded`); `channel_reuses` shows a run past
the window that accepts a replay.
-/
import RemoteDesk.Crypto.Channel
import RemoteDesk.Lib.Runs

namespace RemoteDesk.Crypto

open Wire Lib

-- =================================== trace

structure ChannelTrace where
  sender : Sender := {}
  sealed : List Sealed := []
  rxNonce : Nat := 0
  received : List (Nat × Bytes) := []
  deriving DecidableEq, Repr

/-- The calls of a run. A receive is given the frames (and read errors)
the adversary delivers. -/
inductive ChannelOp
  | send (plaintext : Bytes) (write : Except IoError Unit)
  | sendWithPublication (plaintext : Bytes) (receipt : Receipt)
      (alive : Bool) (write : Except IoError Unit)
  | sendLowPriority (plaintext : Bytes) (write : Except IoError Unit)
  | startStreamingWriter (setup : Except IoError Unit)
  | writerStep (beginWrite : Bool) (write : Except IoError Unit)
  | recv (frames : List (Except IoError Bytes))

/-- A source of frames decided beforehand. -/
def popFrame (frames : List (Except IoError Bytes)) :
    Option (Except IoError Bytes × List (Except IoError Bytes)) :=
  match frames with
  | [] => none
  | frame :: frames => some (frame, frames)

/-- The counter the next frame is sealed after. -/
def Sender.counter (s : Sender) : Nat :=
  match s.streamingWriter with
  | some writer => writer.txNonce
  | none => s.txNonce

namespace ChannelTrace

def recordSend (t : ChannelTrace) (sent : Sender × Option Sealed) :
    ChannelTrace :=
  { t with sender := sent.1, sealed := t.sealed ++ sent.2.toList }

def step (box : SecretBox) (t : ChannelTrace) : ChannelOp → ChannelTrace
  | .send plaintext write =>
    t.recordSend (t.sender.send box plaintext write)
  | .sendWithPublication plaintext receipt alive write =>
    t.recordSend
      (t.sender.sendWithPublication box plaintext receipt alive write)
  | .sendLowPriority plaintext write =>
    t.recordSend (t.sender.sendLowPriority box plaintext write)
  | .startStreamingWriter setup =>
    { t with sender := (t.sender.startStreamingWriter setup).2 }
  | .writerStep beginWrite write =>
    t.recordSend (t.sender.writerStep box beginWrite write)
  | .recv frames =>
    match recv box popFrame t.rxNonce frames with
    | none => t
    | some (.error _, rxNonce, _) => { t with rxNonce }
    | some (.ok plaintext, rxNonce, _) =>
      { t with
        rxNonce
        received := t.received ++ [(rxNonce, plaintext)] }

/-- Receiving seals nothing. -/
theorem step_recv_sealed (box : SecretBox) (t : ChannelTrace)
    (frames : List (Except IoError Bytes)) :
    (t.step box (.recv frames)).sealed = t.sealed := by
  unfold step
  dsimp only
  split <;> rfl

end ChannelTrace

/-- An ideal box, as far as these frames go: what opens under a nonce was
sealed under it. -/
def Ideal (box : SecretBox) (sealed : List Sealed)
    (frames : List (Except IoError Bytes)) : Prop :=
  ∀ ciphertext, .ok ciphertext ∈ frames → ∀ nonce plaintext,
    box.decrypt nonce ciphertext = some plaintext →
    ∃ s ∈ sealed, nonceBytes s.nonce = nonce ∧ s.plaintext = plaintext
      ∧ s.ciphertext = ciphertext

/-- Receives meet an ideal box; sends stay clear of the counter's
wrap. -/
def Guarded (box : SecretBox) (t : ChannelTrace) : ChannelOp → Prop
  | .recv frames => Ideal box t.sealed frames
  | _ => t.sender.counter + maxNonceRecoverySkip + 1 < 2 ^ 64

/-- What every run under those assumptions guarantees. -/
structure OrderSafe (t : ChannelTrace) : Prop where
  /-- No plaintext is returned twice, and none out of order. -/
  increasing : (t.received.map Prod.fst).Pairwise (· < ·)
  /-- What is returned was sealed, under the counter it opened under. -/
  authentic : ∀ r ∈ t.received, ∃ s ∈ t.sealed,
    s.nonce = r.1 ∧ s.plaintext = r.2
  /-- A counter is used again only after a failed write. -/
  fresh : t.sealed.Pairwise fun a b =>
    a.nonce = b.nonce → a.written = false

-- ========================== one send, once

/-- What a sending call does to the counter: nothing without a sealing;
with one, it seals under the next counter and moves there if the frame
was written. -/
inductive Advances (s : Sender) : Sender × Option Sealed → Prop
  | idle (s' : Sender) (h : s'.counter = s.counter) : Advances s (s', none)
  | failed (s' : Sender) (a : Sealed)
      (hn : a.nonce = wrappingAdd s.counter 1) (hw : a.written = false)
      (h : s'.counter = s.counter) : Advances s (s', some a)
  | written (s' : Sender) (a : Sealed)
      (hn : a.nonce = wrappingAdd s.counter 1)
      (h : s'.counter = a.nonce) : Advances s (s', some a)

variable {n : Nat} {frames : List (Except IoError Bytes)}

section Sending

variable (box : SecretBox) (s : Sender) (plaintext : Bytes)
  (write : Except IoError Unit)

/-- The common body, whatever the sender that runs it. -/
theorem sealAndWrite_cases {n' : Nat} {result : Except IoError Unit}
    {attempt : Option Sealed}
    (h : sealAndWrite box n plaintext write = (result, n', attempt)) :
    (attempt = none ∧ n' = n)
      ∨ ∃ a, attempt = some a ∧ a.nonce = wrappingAdd n 1
        ∧ (a.written = false ∧ n' = n ∨ n' = a.nonce) := by
  unfold sealAndWrite at h
  dsimp only at h
  split at h
  · cases h; exact Or.inl ⟨rfl, rfl⟩
  · split at h
    · cases h; exact Or.inr ⟨_, rfl, rfl, Or.inl ⟨rfl, rfl⟩⟩
    · split at h
      · cases h; exact Or.inr ⟨_, rfl, rfl, Or.inl ⟨rfl, rfl⟩⟩
      · cases h; exact Or.inr ⟨_, rfl, rfl, Or.inr rfl⟩

theorem sendDirect_advances (h : s.streamingWriter = none) :
    Advances s (s.sendDirect box plaintext write).2 := by
  have hcounter : ∀ n, ({ s with txNonce := n } : Sender).counter = n :=
    fun n => by unfold Sender.counter; rw [h]
  have hs : s.counter = s.txNonce := by unfold Sender.counter; rw [h]
  unfold Sender.sendDirect
  rcases heq : sealAndWrite box s.txNonce plaintext write with
    ⟨result, n', attempt⟩
  have hcase := sealAndWrite_cases box plaintext write heq
  rcases hcase with ⟨rfl, rfl⟩ | ⟨a, rfl, hn, ⟨hw, rfl⟩ | rfl⟩
  · exact .idle _ ((hcounter _).trans hs.symm)
  · exact .failed _ a (hs ▸ hn) hw ((hcounter _).trans hs.symm)
  · exact .written _ a (hs ▸ hn) (hcounter _)

/-- Queueing a write seals nothing. -/
theorem queued_advances {writer : StreamingWriter}
    (h : s.streamingWriter = some writer) (queue : StreamingWriterState) :
    Advances s
      ({ s with streamingWriter := some { writer with queue } }, none) :=
  .idle _ (by unfold Sender.counter; rw [h])

theorem send_advances : Advances s (s.send box plaintext write) := by
  unfold Sender.send
  cases h : s.streamingWriter with
  | none => exact sendDirect_advances box s plaintext write h
  | some writer =>
    dsimp only
    cases writer.queue.enqueueControl plaintext none true true with
    | accepted queue => exact queued_advances s h queue
    | refused e => exact .idle _ rfl
    | wait => exact .idle _ rfl

theorem sendWithPublication_advances (receipt : Receipt) (alive : Bool) :
    Advances s
      (s.sendWithPublication box plaintext receipt alive write) := by
  unfold Sender.sendWithPublication
  cases h : s.streamingWriter with
  | none =>
    dsimp only
    cases alive with
    | false => exact .idle _ rfl
    | true => exact sendDirect_advances box s plaintext write h
  | some writer =>
    dsimp only
    cases writer.queue.enqueueControl plaintext (some receipt)
        alive alive with
    | accepted queue => exact queued_advances s h queue
    | refused e => exact .idle _ rfl
    | wait => exact .idle _ rfl

theorem sendLowPriority_advances :
    Advances s (s.sendLowPriority box plaintext write) := by
  unfold Sender.sendLowPriority
  cases h : s.streamingWriter with
  | none => exact sendDirect_advances box s plaintext write h
  | some writer => exact queued_advances s h _

theorem writerStep_advances (beginWrite : Bool) :
    Advances s (s.writerStep box beginWrite write) := by
  unfold Sender.writerStep
  cases h : s.streamingWriter with
  | none => exact .idle _ rfl
  | some writer =>
    have hs : s.counter = writer.txNonce := by
      unfold Sender.counter; rw [h]
    have hcounter : ∀ w : StreamingWriter,
        ({ s with streamingWriter := some w } : Sender).counter
          = w.txNonce := fun _ => rfl
    dsimp only
    unfold Sender.writerTurn
    by_cases hrun : (!writer.running) = true
    · rw [if_pos hrun]
      exact .idle _ (hcounter _ ▸ hs.symm)
    rw [if_neg hrun]
    cases writer.queue.takeNext with
    | wait => exact .idle _ (hcounter _ ▸ hs.symm)
    | stop => exact .idle _ (hcounter _ ▸ hs.symm)
    | write queued queue =>
      dsimp only
      by_cases hskip : (queued.publication.isSome && !beginWrite) = true
      · rw [if_pos hskip]
        exact .idle _ (hcounter _ ▸ hs.symm)
      rw [if_neg hskip]
      rcases heq : sealAndWrite box writer.txNonce queued.bytes
        write with ⟨result, n', attempt⟩
      have hcase := sealAndWrite_cases box queued.bytes write heq
      cases result <;> dsimp only <;>
        rcases hcase with ⟨rfl, rfl⟩ | ⟨a, rfl, hn, ⟨hw, rfl⟩ | rfl⟩
      · exact .idle _ hs.symm
      · exact .failed _ a (hs ▸ hn) hw hs.symm
      · exact .written _ a (hs ▸ hn) rfl
      · exact .idle _ hs.symm
      · exact .failed _ a (hs ▸ hn) hw hs.symm
      · exact .written _ a (hs ▸ hn) rfl

theorem startStreamingWriter_counter (setup : Except IoError Unit) :
    (s.startStreamingWriter setup).2.counter = s.counter := by
  unfold Sender.startStreamingWriter
  cases h : s.streamingWriter with
  | some writer => rfl
  | none =>
    cases setup with
    | error e => rfl
    | ok u => unfold Sender.counter; rw [h]; rfl

end Sending

-- ============================= one receive

section Receiving

variable {box : SecretBox} {σ : Type*}

/-- A frame opens under one of the next counters. -/
theorem tryDecrypt_spec {rxNonce candidate : Nat}
    {ciphertext plaintext : Bytes}
    (h : tryDecrypt box rxNonce ciphertext = some (plaintext, candidate)) :
    ∃ skip, 0 < skip ∧ skip ≤ maxNonceRecoverySkip
      ∧ candidate = wrappingAdd rxNonce skip
      ∧ box.decrypt (nonceBytes candidate) ciphertext = some plaintext := by
  unfold tryDecrypt at h
  obtain ⟨skip, hmem, hopen⟩ := List.exists_of_findSome?_eq_some h
  obtain ⟨p, hp, heq⟩ := Option.map_eq_some_iff.mp hopen
  cases heq
  have := List.mem_range'_1.mp hmem
  exact ⟨skip, by omega, by omega, rfl, hp⟩

/-- One turn of the receive loop: it fails with the counter it had, a
frame opens, or the frame is dropped and the loop goes on. -/
theorem recvLoop_turn {resync dropped rxNonce rxNonce' : Nat}
    {firstFailure : Option String} {frame : Except IoError Bytes}
    {rest : List (Except IoError Bytes)} {result : Except IoError Bytes}
    (h : recvLoop box popFrame resync dropped firstFailure rxNonce
      (frame :: frames) = some (result, rxNonce', rest)) :
    ((∃ e, result = .error e) ∧ rxNonce' = rxNonce)
      ∨ (∃ ciphertext plaintext, frame = .ok ciphertext
        ∧ result = .ok plaintext
        ∧ tryDecrypt box rxNonce ciphertext = some (plaintext, rxNonce'))
      ∨ ∃ resync' firstFailure', resync = resync' + 1
        ∧ recvLoop box popFrame resync' (dropped + 1) firstFailure'
          rxNonce frames = some (result, rxNonce', rest) := by
  unfold recvLoop at h
  cases frame with
  | error e =>
    dsimp only [popFrame] at h
    left
    split at h
    · cases h; exact ⟨⟨_, rfl⟩, rfl⟩
    · split at h <;> cases h <;> exact ⟨⟨_, rfl⟩, rfl⟩
  | ok ciphertext =>
    dsimp only [popFrame] at h
    cases hopen : tryDecrypt box rxNonce ciphertext with
    | some opened =>
      rw [hopen] at h
      cases h
      exact Or.inr (Or.inl ⟨ciphertext, _, rfl, rfl, hopen⟩)
    | none =>
      rw [hopen] at h
      cases resync with
      | zero => cases h; exact Or.inl ⟨⟨_, rfl⟩, rfl⟩
      | succ resync => exact Or.inr (Or.inr ⟨resync, _, rfl, h⟩)

/-- What the receive loop can end with: an error and the old counter, or
a plaintext one of the frames opened to, under a next counter. -/
theorem recvLoop_spec {rxNonce : Nat} {rest : List (Except IoError Bytes)} :
    ∀ {resync dropped : Nat} {firstFailure : Option String}
      {result : Except IoError Bytes} {rxNonce' : Nat},
      recvLoop box popFrame resync dropped firstFailure rxNonce frames
        = some (result, rxNonce', rest) →
      ((∃ e, result = .error e) ∧ rxNonce' = rxNonce)
        ∨ ∃ ciphertext plaintext, .ok ciphertext ∈ frames
          ∧ result = .ok plaintext
          ∧ tryDecrypt box rxNonce ciphertext
            = some (plaintext, rxNonce') := by
  induction frames with
  | nil =>
    intro resync dropped firstFailure result rxNonce' h
    unfold recvLoop at h
    cases h
  | cons frame frames ih =>
    intro resync dropped firstFailure result rxNonce' h
    rcases recvLoop_turn h with hfail | ⟨c, p, rfl, hres, hopen⟩ |
      ⟨resync', firstFailure', -, hrest⟩
    · exact Or.inl hfail
    · exact Or.inr ⟨c, p, List.mem_cons_self .., hres, hopen⟩
    · exact (ih hrest).imp_right fun ⟨c, p, hc, hres⟩ =>
        ⟨c, p, List.mem_cons_of_mem _ hc, hres⟩

end Receiving

-- =========================== the invariant

namespace ChannelTrace

/-- Counters below the wrap by the resynchronisation window. -/
def Clear (n : Nat) : Prop := n + maxNonceRecoverySkip < 2 ^ 64

structure NonceInv (t : ChannelTrace) : Prop where
  sealed_le : ∀ s ∈ t.sealed, s.nonce ≤ t.sender.counter + 1
  written_le : ∀ s ∈ t.sealed, s.written = true →
    s.nonce ≤ t.sender.counter
  sealed_clear : ∀ s ∈ t.sealed, Clear s.nonce
  fresh : t.sealed.Pairwise fun a b =>
    a.nonce = b.nonce → a.written = false
  rx_clear : Clear t.rxNonce
  received_le : ∀ r ∈ t.received, r.1 ≤ t.rxNonce
  increasing : (t.received.map Prod.fst).Pairwise (· < ·)
  authentic : ∀ r ∈ t.received, ∃ s ∈ t.sealed,
    s.nonce = r.1 ∧ s.plaintext = r.2

theorem nonceInv_start : NonceInv {} where
  sealed_le := by intro s hs; cases hs
  written_le := by intro s hs; cases hs
  sealed_clear := by intro s hs; cases hs
  fresh := .nil
  rx_clear := by unfold Clear maxNonceRecoverySkip; decide
  received_le := by intro r hr; cases hr
  increasing := .nil
  authentic := by intro r hr; cases hr

variable {box : SecretBox} {t : ChannelTrace}

theorem wrappingAdd_eq {a b : Nat} (h : a + b < 2 ^ 64) :
    wrappingAdd a b = a + b :=
  Nat.mod_eq_of_lt h

/-- A sealing adds a counter that every written frame is behind. -/
private theorem NonceInv.recordSend (h : t.NonceInv)
    {sent : Sender × Option Sealed} (hs : Advances t.sender sent)
    (hclear : t.sender.counter + maxNonceRecoverySkip + 1 < 2 ^ 64) :
    (t.recordSend sent).NonceInv := by
  have hnext : wrappingAdd t.sender.counter 1 = t.sender.counter + 1 :=
    wrappingAdd_eq (by omega)
  -- what both kinds of sealing share
  have hfresh : ∀ a : Sealed, a.nonce = t.sender.counter + 1 →
      (t.sealed ++ [a]).Pairwise fun a b =>
        a.nonce = b.nonce → a.written = false := by
    intro a ha
    refine List.pairwise_append.mpr ⟨h.fresh, List.pairwise_singleton _ _,
      fun s hs b hb heq => ?_⟩
    rw [List.mem_singleton.mp hb, ha] at heq
    cases hw : s.written with
    | false => rfl
    | true => have := h.written_le s hs hw; omega
  have hauth : ∀ a : Option Sealed, ∀ r ∈ t.received,
      ∃ s ∈ t.sealed ++ a.toList, s.nonce = r.1 ∧ s.plaintext = r.2 := by
    intro a r hr
    obtain ⟨s, hs, hsr⟩ := h.authentic r hr
    exact ⟨s, List.mem_append_left _ hs, hsr⟩
  have hsplit : ∀ (a s : Sealed), s ∈ t.sealed ++ [a] →
      s ∈ t.sealed ∨ s = a := by
    intro a s hs
    rcases List.mem_append.mp hs with hs | hs
    · exact Or.inl hs
    · exact Or.inr (List.mem_singleton.mp hs)
  cases hs with
  | idle s' hc =>
    refine { h with
      sealed_le := ?_, written_le := ?_, sealed_clear := ?_
      fresh := ?_, authentic := hauth none }
    all_goals
      simp only [ChannelTrace.recordSend, Option.toList_none,
        List.append_nil, hc]
    · exact h.sealed_le
    · exact h.written_le
    · exact h.sealed_clear
    · exact h.fresh
  | failed s' a hn hw hc =>
    rw [hnext] at hn
    refine { h with
      sealed_le := ?_, written_le := ?_, sealed_clear := ?_
      fresh := hfresh a hn, authentic := hauth (some a) }
    · intro s hs
      show s.nonce ≤ s'.counter + 1
      rcases hsplit a s hs with hs | rfl
      · rw [hc]; exact h.sealed_le s hs
      · omega
    · intro s hs hwritten
      show s.nonce ≤ s'.counter
      rcases hsplit a s hs with hs | rfl
      · rw [hc]; exact h.written_le s hs hwritten
      · rw [hw] at hwritten; cases hwritten
    · intro s hs
      rcases hsplit a s hs with hs | rfl
      · exact h.sealed_clear s hs
      · unfold Clear; omega
  | written s' a hn hc =>
    rw [hnext] at hn
    refine { h with
      sealed_le := ?_, written_le := ?_, sealed_clear := ?_
      fresh := hfresh a hn, authentic := hauth (some a) }
    · intro s hs
      show s.nonce ≤ s'.counter + 1
      rcases hsplit a s hs with hs | rfl
      · have := h.sealed_le s hs; omega
      · omega
    · intro s hs hwritten
      show s.nonce ≤ s'.counter
      rcases hsplit a s hs with hs | rfl
      · have := h.written_le s hs hwritten; omega
      · omega
    · intro s hs
      rcases hsplit a s hs with hs | rfl
      · exact h.sealed_clear s hs
      · unfold Clear; omega

/-- A receive opens a sealed frame under a counter past the last, and
moves there. -/
private theorem NonceInv.recv (h : t.NonceInv)
    (hideal : Ideal box t.sealed frames) :
    (t.step box (.recv frames)).NonceInv
      ∧ t.rxNonce ≤ (t.step box (.recv frames)).rxNonce := by
  unfold ChannelTrace.step
  dsimp only
  rcases hrecv : Crypto.recv box popFrame t.rxNonce frames with
    _ | ⟨result, rxNonce', rest⟩
  · exact ⟨h, Nat.le_refl _⟩
  rcases recvLoop_spec hrecv with ⟨⟨e, rfl⟩, rfl⟩ |
    ⟨ciphertext, plaintext, hmem, rfl, hopen⟩
  · exact ⟨h, Nat.le_refl _⟩
  obtain ⟨skip, hpos, hle, hcand, hdec⟩ := tryDecrypt_spec hopen
  have hrx := h.rx_clear
  unfold Clear at hrx
  rw [wrappingAdd_eq (by omega)] at hcand
  obtain ⟨s, hs, hnonce, hplain, -⟩ := hideal ciphertext hmem _ _ hdec
  have hsn := h.sealed_clear s hs
  unfold Clear at hsn
  have heq : s.nonce = rxNonce' := by
    refine leBytes_injOn (k := 8) (by omega) (by omega)
      (List.append_inj_left hnonce (by simp))
  refine ⟨?_, by dsimp only; omega⟩
  refine { h with
    rx_clear := ?_, received_le := ?_, increasing := ?_
    authentic := ?_ }
  · rw [← heq]; exact h.sealed_clear s hs
  · intro r hr
    rcases List.mem_append.mp hr with hr | hr
    · have := h.received_le r hr
      dsimp only; omega
    · rw [List.mem_singleton.mp hr]
  · rw [List.map_append]
    refine List.pairwise_append.mpr ⟨h.increasing,
      List.pairwise_singleton _ _, fun n hn m hm => ?_⟩
    obtain ⟨r, hr, rfl⟩ := List.mem_map.mp hn
    have := h.received_le r hr
    rw [List.mem_singleton.mp hm]
    omega
  · intro r hr
    rcases List.mem_append.mp hr with hr | hr
    · exact h.authentic r hr
    · rw [List.mem_singleton.mp hr]
      exact ⟨s, hs, heq, hplain⟩

theorem NonceInv.step (h : t.NonceInv) {op : ChannelOp}
    (hg : Guarded box t op) :
    (t.step box op).NonceInv ∧ t.rxNonce ≤ (t.step box op).rxNonce := by
  cases op with
  | send plaintext write =>
    exact ⟨h.recordSend (send_advances ..) hg, Nat.le_refl _⟩
  | sendWithPublication plaintext receipt alive write =>
    exact ⟨h.recordSend (sendWithPublication_advances ..) hg,
      Nat.le_refl _⟩
  | sendLowPriority plaintext write =>
    exact ⟨h.recordSend (sendLowPriority_advances ..) hg,
      Nat.le_refl _⟩
  | startStreamingWriter setup =>
    refine ⟨{ h with sealed_le := ?_, written_le := ?_ },
      Nat.le_refl _⟩
    · show ∀ s ∈ t.sealed, s.nonce
        ≤ (t.sender.startStreamingWriter setup).2.counter + 1
      rw [startStreamingWriter_counter]
      exact h.sealed_le
    · show ∀ s ∈ t.sealed, s.written = true → s.nonce
        ≤ (t.sender.startStreamingWriter setup).2.counter
      rw [startStreamingWriter_counter]
      exact h.written_le
  | writerStep beginWrite write =>
    exact ⟨h.recordSend (writerStep_advances ..) hg, Nat.le_refl _⟩
  | recv frames => exact h.recv hg

end ChannelTrace

-- ============================== the result

/-- Every guarded run of the channel is safe, and the receive counter
never goes back. -/
theorem channel_order (box : SecretBox) (ops : List ChannelOp)
    (h : Meets (ChannelTrace.step box) (Guarded box) {} ops) :
    OrderSafe (exec (ChannelTrace.step box) {} ops)
      ∧ ∀ ops₁ ops₂, ops = ops₁ ++ ops₂ →
        (exec (ChannelTrace.step box) {} ops₁).rxNonce
          ≤ (exec (ChannelTrace.step box) {} ops).rxNonce := by
  have hstep : ∀ (t : ChannelTrace) op, t.NonceInv → Guarded box t op →
      (t.step box op).NonceInv := fun t op h hg => (h.step hg).1
  refine ⟨?_, fun ops₁ ops₂ hsplit => ?_⟩
  · have hinv := h.invariant hstep ChannelTrace.nonceInv_start
    exact ⟨hinv.increasing, hinv.authentic, hinv.fresh⟩
  · subst hsplit
    obtain ⟨h₁, h₂⟩ := meets_append.mp h
    rw [exec_append]
    exact h₂.monotone (fun t op hinv hg => hinv.step hg)
      (h₁.invariant hstep ChannelTrace.nonceInv_start)

-- ===================== runs of a plain box

/-- A box that hides nothing: the nonce, then the plaintext. It opens
what it sealed, under the nonce it was sealed under. -/
def plainBox : SecretBox where
  encrypt nonce plaintext := some (nonce ++ plaintext)
  decrypt nonce ciphertext :=
    if 24 ≤ ciphertext.length ∧ ciphertext.take 24 = nonce
    then some (ciphertext.drop 24) else none

/-- The plain box is ideal for frames that were sealed, and for frames
too short to hold a nonce. -/
theorem plainBox_ideal {sealed : List Sealed}
    (h : ∀ c, .ok c ∈ frames → c.length < 24
      ∨ ∃ s ∈ sealed, s.ciphertext = c
        ∧ c = nonceBytes s.nonce ++ s.plaintext) :
    Ideal plainBox sealed frames := by
  intro c hc nonce plaintext hopen
  unfold plainBox at hopen
  dsimp only at hopen
  split at hopen
  case isFalse => cases hopen
  case isTrue hlong =>
    obtain ⟨hlen, rfl⟩ := hlong
    cases hopen
    rcases h c hc with hshort | ⟨s, hs, hsc, hcs⟩
    · omega
    · have hn : (nonceBytes s.nonce).length = 24 := by
        simp [nonceBytes]
      refine ⟨s, hs, ?_, ?_, hsc⟩
      · rw [hcs, ← hn, List.take_left]
      · rw [hcs, ← hn, List.drop_left]

/-- A send, a failed send and its retry, the hand-over, a queued write;
then garbage, the last frame, and a replay of the first. -/
theorem channel_order_run :
    OrderSafe (exec (ChannelTrace.step plainBox) {}
      [.send [7] (.ok ()), .send [8] (.error eofError),
        .send [8] (.ok ()), .startStreamingWriter (.ok ()),
        .send [9] (.ok ()), .writerStep true (.ok ()),
        .recv [.ok [0], .ok (nonceBytes 3 ++ [9])],
        .recv [.ok (nonceBytes 1 ++ [7])]]) := by
  refine (channel_order plainBox _ ?_).1
  refine ⟨?_, ?_, ?_, ?_, ?_, ?_, ?_, ?_, trivial⟩
  iterate 6 · show _ < _; decide
  · refine plainBox_ideal fun c hc => ?_
    rcases List.mem_cons.mp hc with hc | hc
    · cases hc; left; decide
    · cases List.mem_singleton.mp hc
      exact Or.inr ⟨⟨3, [9], nonceBytes 3 ++ [9], true⟩, by decide, rfl,
        rfl⟩
  · show Ideal plainBox (ChannelTrace.step plainBox _ (.recv _)).sealed _
    rw [ChannelTrace.step_recv_sealed]
    refine plainBox_ideal fun c hc => ?_
    cases List.mem_singleton.mp hc
    exact Or.inr ⟨⟨1, [7], nonceBytes 1 ++ [7], true⟩, by decide, rfl, rfl⟩

-- =========================== where it ends

/-- One round: an empty plaintext is sent and its frame delivered. -/
def exchange (i : Nat) : List ChannelOp :=
  [.send [] (.ok ()), .recv [.ok (nonceBytes (i + 1))]]

/-- The trace after `n` rounds. -/
def exchanged (n : Nat) : ChannelTrace :=
  { sender := { txNonce := n }
    sealed := (List.range n).map fun i =>
      ⟨i + 1, [], nonceBytes (i + 1), true⟩
    rxNonce := n
    received := (List.range n).map fun i => (i + 1, []) }

theorem length_nonceBytes (n : Nat) : (nonceBytes n).length = 24 := by
  simp [nonceBytes]

/-- A short plaintext is sealed under the next counter and written. -/
theorem sealAndWrite_plainBox (hn : n + 1 < 2 ^ 64) :
    sealAndWrite plainBox n [] (.ok ())
      = (.ok (), n + 1,
        some ⟨n + 1, [], nonceBytes (n + 1), true⟩) := by
  have hmod : wrappingAdd n 1 = n + 1 := ChannelTrace.wrappingAdd_eq hn
  have hlen := length_nonceBytes (n + 1)
  obtain ⟨head, hw⟩ : ∃ frame,
      writeFrame (nonceBytes (n + 1)) = .ok frame := by
    unfold writeFrame writeLen
    rw [hlen]
    exact ⟨_, rfl⟩
  unfold sealAndWrite plainBox
  dsimp only
  rw [hmod, List.append_nil, hw]

/-- The next frame opens at once. -/
theorem tryDecrypt_next (hn : n + 1 < 2 ^ 64) :
    tryDecrypt plainBox n (nonceBytes (n + 1)) = some ([], n + 1) := by
  have hlen := length_nonceBytes (n + 1)
  unfold tryDecrypt
  rw [show maxNonceRecoverySkip = 4095 + 1 from rfl, List.range'_succ,
    List.findSome?_cons]
  dsimp only
  rw [ChannelTrace.wrappingAdd_eq hn]
  simp [plainBox, hlen, List.take_of_length_le, List.drop_of_length_le]

/-- The send of a round. -/
theorem exchanged_send (hn : n + 1 < 2 ^ 64) :
    (exchanged n).step plainBox (.send [] (.ok ()))
      = { exchanged (n + 1) with
          rxNonce := n, received := (exchanged n).received } := by
  unfold ChannelTrace.step ChannelTrace.recordSend Sender.send
  show ChannelTrace.mk
    ((exchanged n).sender.sendDirect plainBox [] (.ok ())).2.1 _ n _ = _
  unfold Sender.sendDirect
  rw [show (exchanged n).sender.txNonce = n from rfl,
    sealAndWrite_plainBox hn]
  unfold exchanged
  rw [List.range_succ, List.map_append]
  rfl

/-- The frame of a round opens under the next counter. -/
theorem exchange_step (hn : n + 1 < 2 ^ 64) :
    exec (ChannelTrace.step plainBox) (exchanged n) (exchange n)
      = exchanged (n + 1) := by
  show ((exchanged n).step plainBox (.send [] (.ok ()))).step plainBox
    (.recv [.ok (nonceBytes (n + 1))]) = _
  rw [exchanged_send hn]
  have hrecv : Crypto.recv plainBox popFrame n [.ok (nonceBytes (n + 1))]
      = some (.ok [], n + 1, []) := by
    unfold Crypto.recv recvLoop popFrame
    dsimp only
    rw [tryDecrypt_next hn]
  unfold ChannelTrace.step
  dsimp only
  rw [hrecv]
  unfold exchanged
  dsimp only
  congr 1
  rw [List.range_succ, List.map_append]
  rfl

theorem exchanges_run (n : Nat) (hn : n < 2 ^ 64) :
    exec (ChannelTrace.step plainBox) {} ((List.range n).flatMap exchange)
      = exchanged n := by
  induction n with
  | zero => rfl
  | succ n ih =>
    rw [List.range_succ, List.flatMap_append, exec_append,
      ih (Nat.lt_of_succ_lt hn), List.flatMap_singleton,
      exchange_step hn]

/-- Every receive of a run is given frames the box is ideal for. -/
def ReceivesIdeal (t : ChannelTrace) (op : ChannelOp) : Prop :=
  ∀ frames, op = .recv frames → Ideal plainBox t.sealed frames

theorem exchanged_ideal {i : Nat} (hi : i < n) {t : ChannelTrace}
    (ht : t.sealed = (exchanged n).sealed) :
    ReceivesIdeal t (.recv [.ok (nonceBytes (i + 1))]) := by
  intro frames h
  cases h
  rw [ht]
  refine plainBox_ideal fun c hc => ?_
  cases List.mem_singleton.mp hc
  exact Or.inr ⟨⟨i + 1, [], nonceBytes (i + 1), true⟩,
    List.mem_map.mpr ⟨i, List.mem_range.mpr hi, rfl⟩, rfl,
    (List.append_nil _).symm⟩

theorem exchanges_ideal (n : Nat) (hn : n < 2 ^ 64) :
    Meets (ChannelTrace.step plainBox) ReceivesIdeal {}
      ((List.range n).flatMap exchange) := by
  induction n with
  | zero => trivial
  | succ n ih =>
    rw [List.range_succ, List.flatMap_append, List.flatMap_singleton,
      meets_append, exchanges_run n (Nat.lt_of_succ_lt hn)]
    refine ⟨ih (Nat.lt_of_succ_lt hn), ⟨?_, ?_, trivial⟩⟩
    · intro frames h
      cases h
    · rw [exchanged_send hn]
      exact exchanged_ideal (Nat.lt_succ_self n) rfl

/-- At the last counter the window wraps, and the first frame opens
again. -/
theorem tryDecrypt_wrapped :
    tryDecrypt plainBox (2 ^ 64 - 1) (nonceBytes 1) = some ([], 1) := by
  unfold tryDecrypt
  rw [show maxNonceRecoverySkip = 4094 + 1 + 1 from rfl,
    List.range'_succ, List.findSome?_cons, List.range'_succ,
    List.findSome?_cons]
  rfl

/-- The channel's order is not unconditional. A failed write leaves its
counter to be sealed under again, with another plaintext; and a run that
uses up the counter returns its first frame a second time. -/
theorem channel_reuses :
    (exec (ChannelTrace.step plainBox) {}
        [.send [1] (.error eofError), .send [2] (.ok ())]).sealed
      = [⟨1, [1], nonceBytes 1 ++ [1], false⟩,
        ⟨1, [2], nonceBytes 1 ++ [2], true⟩]
    ∧ ∃ ops, Meets (ChannelTrace.step plainBox) ReceivesIdeal {} ops
      ∧ ¬ ((exec (ChannelTrace.step plainBox) {} ops).received.map
        Prod.fst).Pairwise (· < ·) := by
  refine ⟨by decide, ?_⟩
  obtain ⟨n, hn⟩ : ∃ n, n = 2 ^ 64 - 1 := ⟨_, rfl⟩
  have hlt : n < 2 ^ 64 := by omega
  refine ⟨(List.range n).flatMap exchange ++ [.recv [.ok (nonceBytes 1)]],
    ?_, ?_⟩
  · rw [meets_append, exchanges_run n hlt]
    exact ⟨exchanges_ideal n hlt, exchanged_ideal (i := 0) (by omega) rfl,
      trivial⟩
  · have hrecv : Crypto.recv plainBox popFrame (exchanged n).rxNonce
        [.ok (nonceBytes 1)] = some (.ok [], 1, []) := by
      unfold Crypto.recv recvLoop popFrame
      dsimp only
      rw [show (exchanged n).rxNonce = 2 ^ 64 - 1 from hn,
        tryDecrypt_wrapped]
    rw [exec_append, exchanges_run n hlt, exec_cons, exec_nil]
    unfold ChannelTrace.step
    dsimp only
    rw [hrecv]
    intro h
    rw [List.map_append] at h
    have hfirst : 1 ∈ (exchanged n).received.map Prod.fst := by
      refine List.mem_map.mpr ⟨(1, []), List.mem_map.mpr ⟨0, ?_, rfl⟩, rfl⟩
      exact List.mem_range.mpr (by omega)
    exact absurd ((List.pairwise_append.mp h).2.2 1 hfirst 1
      (List.mem_singleton.mpr rfl)) (Nat.lt_irrefl 1)

end RemoteDesk.Crypto
