/-
The channel end to end: what one side sent, the other receives.

The sending half runs as in `ChannelTrace`, and the bytes of the frames
it wrote reach a receiver in any pieces. The codec carries the frames;
the counters wrap alike on both sides, so that each frame opens under
the counter the receiver tries first.
-/
import RemoteDesk.Crypto.NonceOrder
import RemoteDesk.Wire.Codec

namespace RemoteDesk.Crypto

open Wire Lib

-- ============================ the receiver

/-- The receiving half, the source it reads, and what it returned. -/
structure Receiver where
  rxNonce : Nat := 0
  source : Bytes × List ReadEvent
  received : List Bytes := []

/-- One call of `recv`; a call still waiting for bytes changes
nothing. -/
def Receiver.call (box : SecretBox) (r : Receiver) : Receiver :=
  match recv box readCiphertextFrame r.rxNonce r.source with
  | none => r
  | some (.error _, rxNonce, source) => { r with rxNonce, source }
  | some (.ok plaintext, rxNonce, source) =>
    { rxNonce, source, received := r.received ++ [plaintext] }

/-- The bytes buffered and still to arrive. -/
def incoming (source : Bytes × List ReadEvent) : Bytes :=
  source.1 ++ arrived source.2

/-- The box opens what it sealed. -/
def Opens (box : SecretBox) : Prop :=
  ∀ n plaintext ciphertext,
    box.encrypt (nonceBytes n) plaintext = some ciphertext →
    box.decrypt (nonceBytes n) ciphertext = some plaintext

variable {box : SecretBox} {a : Sealed}

-- ======================= what a sealing is

/-- A sealed record is what the box made of it, and a frame that was
written had the size of a frame. -/
def WellSealed (box : SecretBox) (a : Sealed) : Prop :=
  box.encrypt (nonceBytes a.nonce) a.plaintext = some a.ciphertext
    ∧ (a.written = true → a.ciphertext.length ≤ maxFrameSize)

section Sending

variable {n : Nat} {plaintext : Bytes} {write : Except IoError Unit}
  {s : Sender}

theorem sealAndWrite_wellSealed
    (h : (sealAndWrite box n plaintext write).2.2 = some a) :
    WellSealed box a := by
  unfold sealAndWrite at h
  dsimp only at h
  split at h
  · cases h
  next ciphertext hseal =>
    split at h
    · cases h; exact ⟨hseal, nofun⟩
    next encoded hframe =>
      have hlen : ciphertext.length ≤ maxFrameSize := by
        by_contra hlong
        unfold writeFrame at hframe
        rw [if_pos (Nat.lt_of_not_le hlong)] at hframe
        cases hframe
      split at h <;> cases h <;> exact ⟨hseal, fun _ => hlen⟩

theorem send_wellSealed (h : (s.send box plaintext write).2 = some a) :
    WellSealed box a := by
  unfold Sender.send at h
  split at h
  · split at h <;> cases h
  · exact sealAndWrite_wellSealed h

theorem sendWithPublication_wellSealed {receipt : Receipt} {alive : Bool}
    (h : (s.sendWithPublication box plaintext receipt alive write).2
      = some a) : WellSealed box a := by
  unfold Sender.sendWithPublication at h
  split at h
  · split at h <;> cases h
  · split at h
    · exact sealAndWrite_wellSealed h
    · cases h

theorem sendLowPriority_wellSealed
    (h : (s.sendLowPriority box plaintext write).2 = some a) :
    WellSealed box a := by
  unfold Sender.sendLowPriority at h
  split at h
  · cases h
  · exact sealAndWrite_wellSealed h

theorem writerStep_wellSealed {beginWrite : Bool}
    (h : (s.writerStep box beginWrite write).2 = some a) :
    WellSealed box a := by
  unfold Sender.writerStep Sender.writerTurn at h
  split at h
  · cases h
  · dsimp only at h
    split at h
    · cases h
    · split at h
      · cases h
      · cases h
      next queued _ _ =>
        split at h
        · cases h
        · generalize hseal : sealAndWrite box _ queued.bytes write = out at h
          have hout : out.2.2 = some a := by
            rcases out with ⟨_ | _, n', attempt⟩ <;> exact h
          exact sealAndWrite_wellSealed (hseal ▸ hout)

end Sending

-- ============================= the sender

/-- Up to the first failed write, the frames carry the counters from one
on, as `u64` counts them. -/
structure Numbered (box : SecretBox) (t : ChannelTrace) : Prop where
  seals : ∀ a ∈ t.sealed, WellSealed box a
  counter : (∀ a ∈ t.sealed, a.written = true) →
    t.sender.counter = t.sealed.length % 2 ^ 64
  nonces : ∀ frames, frames <+: t.sealed →
    (∀ a ∈ frames, a.written = true) →
    frames.map Sealed.nonce
      = (List.range' 0 frames.length).map (wrappingAdd · 1)

namespace Numbered

variable {t : ChannelTrace}

/-- A sealing under the next counter, which the sender keeps if it
wrote the frame. -/
theorem snoc (h : Numbered box t) {sender : Sender}
    (ha : WellSealed box a) (hn : a.nonce = wrappingAdd t.sender.counter 1)
    (hc : a.written = true → sender.counter = a.nonce) :
    Numbered box { t with sender, sealed := t.sealed ++ [a] } := by
  have hnext : (∀ b ∈ t.sealed ++ [a], b.written = true) →
      a.nonce = wrappingAdd t.sealed.length 1 := by
    intro hall
    rw [hn, h.counter fun b hb => hall b (List.mem_append_left _ hb)]
    exact Nat.mod_add_mod ..
  refine ⟨?_, ?_, ?_⟩
  · intro b hb
    rcases List.mem_append.mp hb with hb | hb
    · exact h.seals b hb
    · exact List.mem_singleton.mp hb ▸ ha
  · intro hall
    show sender.counter = (t.sealed ++ [a]).length % 2 ^ 64
    rw [hc (hall a (by simp)), hnext hall, List.length_append]
    rfl
  · intro frames hpre hall
    rcases List.prefix_concat_iff.mp hpre with rfl | hpre
    · have hrest := h.nonces t.sealed (List.prefix_refl _)
        fun b hb => hall b (List.mem_append_left _ hb)
      rw [List.map_append, hrest, List.length_append, List.map_singleton,
        hnext hall, List.length_singleton, List.range'_1_concat,
        List.map_append, Nat.zero_add, List.map_singleton]
    · exact h.nonces frames hpre hall

theorem recordSend (h : Numbered box t) {sent : Sender × Option Sealed}
    (hs : Advances t.sender sent)
    (hw : ∀ {a}, sent.2 = some a → WellSealed box a) :
    Numbered box (t.recordSend sent) := by
  cases hs with
  | idle s' hc =>
    have hsealed : (t.recordSend (s', none)).sealed = t.sealed :=
      List.append_nil _
    refine ⟨?_, ?_, ?_⟩ <;> rw [hsealed]
    · exact h.seals
    · exact fun hall => hc.trans (h.counter hall)
    · exact h.nonces
  | failed s' a hn hfail hc =>
    refine h.snoc (hw rfl) hn fun hwritten => ?_
    rw [hfail] at hwritten
    cases hwritten
  | written s' a hn hc => exact h.snoc (hw rfl) hn fun _ => hc

theorem step (h : Numbered box t) (op : ChannelOp) :
    Numbered box (t.step box op) := by
  cases op with
  | send plaintext write =>
    exact h.recordSend (send_advances ..) send_wellSealed
  | sendWithPublication plaintext receipt alive write =>
    exact h.recordSend (sendWithPublication_advances ..)
      sendWithPublication_wellSealed
  | sendLowPriority plaintext write =>
    exact h.recordSend (sendLowPriority_advances ..)
      sendLowPriority_wellSealed
  | startStreamingWriter setup =>
    have hc := startStreamingWriter_counter t.sender setup
    exact ⟨h.seals, fun hall => hc.trans (h.counter hall), h.nonces⟩
  | writerStep beginWrite write =>
    exact h.recordSend (writerStep_advances ..) writerStep_wellSealed
  | recv frames =>
    unfold ChannelTrace.step
    dsimp only
    split <;> exact ⟨h.seals, h.counter, h.nonces⟩

end Numbered

/-- The frames a run wrote before a write first failed. -/
def wired (box : SecretBox) (ops : List ChannelOp) : List Sealed :=
  (exec (ChannelTrace.step box) {} ops).sealed.takeWhile (·.written)

-- =========================== the receiver

/-- The frame sealed under the next counter opens at the first try. -/
theorem tryDecrypt_opens {n : Nat} (hbox : Opens box)
    (ha : WellSealed box a) (hn : a.nonce = wrappingAdd n 1) :
    tryDecrypt box n a.ciphertext = some (a.plaintext, a.nonce) := by
  have hopen := hbox _ _ _ ha.1
  rw [hn] at hopen
  unfold tryDecrypt
  rw [show maxNonceRecoverySkip = 4095 + 1 from rfl, List.range'_succ,
    List.findSome?_cons]
  dsimp only
  rw [hopen, hn]
  rfl

/-- One call gets the plaintext of the frame that comes next. -/
theorem Receiver.call_next {r : Receiver} {encoded rest : Bytes}
    (hbox : Opens box) (ha : WellSealed box a) (hw : a.written = true)
    (hn : a.nonce = wrappingAdd r.rxNonce 1)
    (hframe : writeFrame a.ciphertext = .ok encoded)
    (hquiet : Quiet r.source.2)
    (hin : incoming r.source = encoded ++ rest) :
    ∃ source, r.call box
        = { rxNonce := a.nonce, source
            received := r.received ++ [a.plaintext] }
      ∧ Quiet source.2 ∧ incoming source = rest := by
  obtain ⟨buffer, events, hread, hquiet', hrest⟩ :=
    @readBufferedFrame_written _ connectionClosed _ _ (ha.2 hw) hframe
      _ _ hquiet hin
  refine ⟨(buffer, events), ?_, hquiet', hrest⟩
  unfold Receiver.call recv recvLoop readCiphertextFrame
  rw [hread]
  dsimp only
  rw [tryDecrypt_opens hbox ha hn]

/-- A receiver that is `k` frames on gets the frames after them. -/
theorem Receiver.gets (hbox : Opens box) {rest : Bytes} :
    ∀ {frames : List Sealed} {encoded : Bytes} {r : Receiver} {k : Nat},
      (∀ a ∈ frames, WellSealed box a ∧ a.written = true) →
      r.rxNonce = k % 2 ^ 64 →
      frames.map Sealed.nonce
        = (List.range' k frames.length).map (wrappingAdd · 1) →
      writeFrames (frames.map Sealed.ciphertext) = .ok encoded →
      Quiet r.source.2 →
      incoming r.source = encoded ++ rest →
      ((Receiver.call box)^[frames.length] r).received
          = r.received ++ frames.map Sealed.plaintext
        ∧ incoming ((Receiver.call box)^[frames.length] r).source
          = rest := by
  intro frames
  induction frames with
  | nil =>
    intro encoded r k _ _ _ hw _ hin
    cases hw
    exact ⟨(List.append_nil _).symm, hin⟩
  | cons a frames ih =>
    intro encoded r k hall hk hnonces hw hquiet hin
    obtain ⟨hn, hnonces⟩ := List.cons.inj hnonces
    obtain ⟨ha, hwritten⟩ := hall a List.mem_cons_self
    have hnext : a.nonce = wrappingAdd r.rxNonce 1 := by
      rw [hk, hn]; exact (Nat.mod_add_mod ..).symm
    rw [List.map_cons, writeFrames] at hw
    split at hw
    · cases hw
    next head hhead =>
      split at hw <;> cases hw
      next more hmore =>
        rw [List.append_assoc] at hin
        obtain ⟨source, hcall, hquiet', hin'⟩ :=
          call_next hbox ha hwritten hnext hhead hquiet hin
        have hrun := ih (r := r.call box)
          (fun b hb => hall b (List.mem_cons_of_mem _ hb))
          (by rw [hcall]; exact hn) hnonces hmore
          (by rw [hcall]; exact hquiet') (by rw [hcall]; exact hin')
        rw [List.length_cons, Function.iterate_succ_apply]
        refine ⟨?_, hrun.2⟩
        rw [hrun.1, hcall, List.map_cons, List.append_assoc]
        rfl

-- ============================== the result

/-- The frames written before a write first failed are received in
order, each as the plaintext it was sealed from, in whatever pieces they
arrive and whatever follows them. -/
theorem channel_delivers (hbox : Opens box) (ops : List ChannelOp) :
    ∃ encoded,
      writeFrames ((wired box ops).map Sealed.ciphertext) = .ok encoded
        ∧ ∀ source rest, Quiet source.2 →
          incoming source = encoded ++ rest →
          ((Receiver.call box)^[(wired box ops).length]
              { source }).received = (wired box ops).map Sealed.plaintext
          ∧ incoming ((Receiver.call box)^[(wired box ops).length]
              { source }).source = rest := by
  have h : Numbered box (exec (ChannelTrace.step box) {} ops) :=
    exec_invariant (fun _ op h => h.step op) ops
      ⟨nofun, fun _ => rfl, fun _ hpre _ => by
        rw [List.prefix_nil.mp hpre]; rfl⟩
  have hpre : wired box ops <+: _ := List.takeWhile_prefix _
  have hall : ∀ a ∈ wired box ops, WellSealed box a ∧ a.written = true :=
    fun a ha => ⟨h.seals a (hpre.subset ha), List.mem_takeWhile_imp ha⟩
  obtain ⟨encoded, hw, -⟩ := @writeFrames_readsBack
    ((wired box ops).map Sealed.ciphertext) (by
      intro c hc
      obtain ⟨a, ha, rfl⟩ := List.mem_map.mp hc
      exact (hall a ha).1.2 (hall a ha).2)
  exact ⟨encoded, hw, fun source rest => Receiver.gets (r := { source })
    hbox hall rfl (h.nonces _ hpre fun a ha => (hall a ha).2) hw⟩

/-- The plain box opens what it sealed. -/
theorem plainBox_opens : Opens plainBox := by
  intro n plaintext ciphertext h
  cases h
  have hlen := length_nonceBytes n
  simp [plainBox, hlen, List.take_left', List.drop_left']

/-- A direct send, the hand-over and a failed write on the thread; the
first frame arrives in two pieces. -/
theorem channel_delivers_run :
    ((Receiver.call plainBox)^[1] { source := ([100, 1],
      [.interrupted, .data (List.replicate 23 0 ++ [7])]) }).received
      = [[7]] := by
  obtain ⟨encoded, hw, h⟩ := channel_delivers plainBox_opens
    [.send [7] (.ok ()), .startStreamingWriter (.ok ()),
      .send [8] (.ok ()), .writerStep true (.error eofError)]
  cases hw
  refine (h _ [] ?_ rfl).1
  simp [Quiet]

end RemoteDesk.Crypto
