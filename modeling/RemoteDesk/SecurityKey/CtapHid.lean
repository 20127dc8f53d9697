/-
Messages to a security key in reports of 64 bytes
(services/pro/ProFidoHidCodec.ets).

`proFidoPackets` cuts a message into one initial packet and packets numbered
from zero; `ProFidoHidResponse` puts a message together and passes over the
packets of other channels. A packet is a frame and padding, and padding is not
read. The reader is followed from the state `collecting`, in which it has got
some bytes and knows how many are missing: there a packet of its channel is
the next frame or ends the operation (`accept_next`, `accept_other`), so a
message is returned exactly when all its frames have come in order
(`receive_frames`, `frames_of_receive`).

An operation ends with the first message returned and with the first error;
nothing is fed to it afterwards.
-/
import RemoteDesk.Lib.BigEndian

namespace RemoteDesk.SecurityKey.CtapHid

open Lib

def PRO_FIDO_PACKET_SIZE : Nat := 64
def PRO_FIDO_BROADCAST : Nat := 0xffffffff

/-- A packet under construction is a fresh array of zeros. -/
def padded (frame : List UInt8) : List UInt8 :=
  frame ++ List.replicate (PRO_FIDO_PACKET_SIZE - frame.length) 0

def initialFrame (channel command : Nat) (data : List UInt8) : List UInt8 :=
  beBytes 4 channel ++ [UInt8.ofNat (command ||| 0x80),
    UInt8.ofNat (data.length >>> 8), UInt8.ofNat (data.length &&& 255)]
    ++ data.take (PRO_FIDO_PACKET_SIZE - 7)

/-- The turns of the loop after the first. -/
def continuationFrames (channel sequence : Nat) (rest : List UInt8) :
    List (List UInt8) :=
  if rest = [] then []
  else (beBytes 4 channel ++ [UInt8.ofNat sequence]
      ++ rest.take (PRO_FIDO_PACKET_SIZE - 5))
    :: continuationFrames channel (sequence + 1)
      (rest.drop (PRO_FIDO_PACKET_SIZE - 5))
termination_by rest.length
decreasing_by
  have hpos := List.length_pos_of_ne_nil ‹_›
  rw [List.length_drop, PRO_FIDO_PACKET_SIZE]
  omega

def frames (channel command : Nat) (data : List UInt8) : List (List UInt8) :=
  initialFrame channel command data
    :: continuationFrames channel 0 (data.drop (PRO_FIDO_PACKET_SIZE - 7))

def proFidoPackets (channel command : Nat) (data : List UInt8) :
    Except String (List (List UInt8)) :=
  if channel = 0 ∨ PRO_FIDO_BROADCAST < channel ∨ command < 1 ∨ 0x7f < command
      ∨ 7609 < data.length then .error "无效的 FIDO 数据包"
  else .ok ((frames channel command data).map padded)

def readChannel (packet : List UInt8) : Nat := beNat (packet.take 4)

structure ProFidoHidResponse where
  channel : Nat
  command : Nat
  data : Option (List UInt8) := none
  offset : Nat := 0
  sequence : Nat := 0
  complete : Bool := false

namespace ProFidoHidResponse

/-- What a packet with such a header adds. -/
def take (r : ProFidoHidResponse) (packet : List UInt8) (header : Nat) :
    Except String (ProFidoHidResponse × Option (List UInt8)) :=
  match r.data with
  | none => .error "FIDO 响应未初始化"
  | some data =>
    let length := min (PRO_FIDO_PACKET_SIZE - header) (data.length - r.offset)
    let chunk := (packet.drop header).take length
    let data := data.take r.offset ++ chunk ++ data.drop (r.offset + length)
    let r := { r with data := some data, offset := r.offset + length }
    if r.offset < data.length then .ok (r, none)
    else .ok ({ r with complete := true }, some data)

def accept (r : ProFidoHidResponse) (packet : List UInt8) :
    Except String (ProFidoHidResponse × Option (List UInt8)) :=
  if r.complete = true ∨ packet.length ≠ PRO_FIDO_PACKET_SIZE then
    .error "FIDO 响应长度无效"
  else if readChannel packet ≠ r.channel then .ok (r, none)
  else
    let head := packet.getD 4 0
    if head &&& 0x80 ≠ 0 then
      if r.data.isSome ∨ (head &&& 0x7f).toNat ≠ r.command then
        .error "FIDO 响应命令无效"
      else
        let length := (packet.getD 5 0).toNat * 256 + (packet.getD 6 0).toNat
        if 7609 < length then .error "FIDO 响应过大"
        else { r with data := some (List.replicate length 0) }.take packet 7
    else if r.data.isNone ∨ head.toNat ≠ r.sequence ∨ 0x7f < head.toNat then
      .error "FIDO 响应顺序无效"
    else { r with sequence := r.sequence + 1 }.take packet 5

/-- An operation: packets until one returns a message or raises an error. -/
def receive (r : ProFidoHidResponse) :
    List (List UInt8) → Except String (Option (List UInt8))
  | [] => .ok none
  | packet :: packets =>
    match r.accept packet with
    | .error e => .error e
    | .ok (_, some data) => .ok (some data)
    | .ok (r, none) => r.receive packets

end ProFidoHidResponse

open ProFidoHidResponse

-- ================================== frames

/-- The packets of a channel. -/
def ofChannel (channel : Nat) (packets : List (List UInt8)) :
    List (List UInt8) :=
  packets.filter fun packet => readChannel packet = channel

/-- Packets that carry frames, whatever pads them. -/
def Carry (frames packets : List (List UInt8)) : Prop :=
  List.Forall₂ (· <+: ·) frames packets

theorem continuationFrames_done {channel sequence n : Nat} {rest : List UInt8}
    (h : rest.length ≤ n) :
    continuationFrames channel sequence (rest.drop n) = [] := by
  rw [List.drop_of_length_le h, continuationFrames, if_pos rfl]

theorem take_four {channel : Nat} {packet : List UInt8}
    (hlen : packet.length = PRO_FIDO_PACKET_SIZE)
    (h : readChannel packet = channel) :
    packet.take 4 = beBytes 4 channel := by
  have hfour : (packet.take 4).length = 4 := by
    rw [List.length_take, hlen]
    rfl
  have hbytes := beBytes_beNat (packet.take 4)
  rw [hfour] at hbytes
  rw [← hbytes, ← h]
  rfl

/-- The state in which `got` has come and `missing`, still zero, has not. -/
def collecting (channel command sequence : Nat) (got missing : List UInt8) :
    ProFidoHidResponse :=
  { channel, command, data := some (got ++ missing), offset := got.length
    sequence }

/-- A packet that ends the message, and one that does not. -/
theorem take_collecting (channel command sequence header : Nat)
    (got missing packet : List UInt8)
    (hlen : packet.length = PRO_FIDO_PACKET_SIZE) :
    (collecting channel command sequence got missing).take packet header
      = let chunk := (packet.drop header).take missing.length
        if missing.length ≤ PRO_FIDO_PACKET_SIZE - header then
          .ok ({ collecting channel command sequence (got ++ chunk) [] with
                 complete := true }, some (got ++ chunk))
        else .ok (collecting channel command sequence
          (got ++ packet.drop header)
          (missing.drop (PRO_FIDO_PACKET_SIZE - header)), none) := by
  have hleft : (got ++ missing).length - got.length = missing.length := by
    rw [List.length_append]
    omega
  have hpacket : (packet.drop header).length
      = PRO_FIDO_PACKET_SIZE - header := by
    rw [List.length_drop, hlen]
  unfold ProFidoHidResponse.take collecting
  dsimp only
  rw [hleft, List.take_left, List.drop_append, Nat.add_sub_cancel_left,
    List.drop_of_length_le (Nat.le_add_right _ _), List.nil_append]
  by_cases hlast : missing.length ≤ PRO_FIDO_PACKET_SIZE - header
  · have hchunk : ((packet.drop header).take missing.length).length
        = missing.length := by
      rw [List.length_take, hpacket, Nat.min_eq_left hlast]
    rw [if_pos hlast, Nat.min_eq_right hlast,
      List.drop_of_length_le le_rfl, List.append_nil, if_neg]
    · congr 3
      rw [List.length_append, hchunk]
    · rw [List.length_append, hchunk]
      exact lt_irrefl _
  · have hmin : min (PRO_FIDO_PACKET_SIZE - header) missing.length
        = PRO_FIDO_PACKET_SIZE - header := Nat.min_eq_left (by omega)
    rw [if_neg hlast, hmin, List.take_of_length_le hpacket.le, if_pos]
    · rw [List.length_append, hpacket]
    · simp only [List.length_append, List.length_drop, hlen]
      omega

-- ================================= packets

/-- The header bytes of a continuation tell its number. -/
theorem continuation_head {sequence : Nat} (h : sequence < 128) :
    UInt8.ofNat sequence &&& 0x80 = 0
      ∧ (UInt8.ofNat sequence).toNat = sequence := by
  have hall : ∀ s : Fin 128, UInt8.ofNat s &&& 0x80 = 0
      ∧ (UInt8.ofNat s).toNat = s := by decide +kernel
  exact hall ⟨sequence, h⟩

/-- That of an initial packet tells its command. -/
theorem initial_head {command : Nat} (h : command < 128) :
    UInt8.ofNat (command ||| 0x80) &&& 0x80 ≠ 0
      ∧ (UInt8.ofNat (command ||| 0x80) &&& 0x7f).toNat = command := by
  have hall : ∀ c : Fin 128, UInt8.ofNat (c ||| 0x80) &&& 0x80 ≠ 0
      ∧ (UInt8.ofNat (c.val ||| 0x80) &&& 0x7f).toNat = c := by decide +kernel
  exact hall ⟨command, h⟩

theorem head_of_initial {head : UInt8} (h : head &&& 0x80 ≠ 0) :
    head = UInt8.ofNat ((head &&& 0x7f).toNat ||| 0x80) := by
  revert h
  revert head
  decide +kernel

theorem split_five {packet : List UInt8}
    (hlen : packet.length = PRO_FIDO_PACKET_SIZE) :
    packet = packet.take 4 ++ [packet.getD 4 0] ++ packet.drop 5 := by
  have hlt : 4 < packet.length := by rw [hlen]; decide
  rw [List.append_assoc, List.singleton_append, List.getD_eq_getElem _ _ hlt,
    ← List.drop_eq_getElem_cons, List.take_append_drop]

theorem split_seven {packet : List UInt8}
    (hlen : packet.length = PRO_FIDO_PACKET_SIZE) :
    packet = packet.take 4
      ++ [packet.getD 4 0, packet.getD 5 0, packet.getD 6 0]
      ++ packet.drop 7 := by
  have h₄ : 4 < packet.length := by rw [hlen]; decide
  have h₅ : 5 < packet.length := by rw [hlen]; decide
  have h₆ : 6 < packet.length := by rw [hlen]; decide
  rw [List.append_assoc, List.getD_eq_getElem _ _ h₄,
    List.getD_eq_getElem _ _ h₅, List.getD_eq_getElem _ _ h₆,
    List.cons_append, List.cons_append, List.singleton_append,
    ← List.drop_eq_getElem_cons, ← List.drop_eq_getElem_cons,
    ← List.drop_eq_getElem_cons, List.take_append_drop]

section Accept

variable {channel command sequence : Nat} {got missing packet : List UInt8}

theorem accept_other {r : ProFidoHidResponse} (hr : r.complete = false)
    (hlen : packet.length = PRO_FIDO_PACKET_SIZE)
    (h : readChannel packet ≠ r.channel) : r.accept packet = .ok (r, none) := by
  rw [accept, if_neg (by simp [hr, hlen]), if_pos h]

theorem accept_length {r : ProFidoHidResponse}
    {out : ProFidoHidResponse × Option (List UInt8)}
    (h : r.accept packet = .ok out) :
    packet.length = PRO_FIDO_PACKET_SIZE := by
  by_contra hlen
  rw [accept, if_pos (.inr hlen)] at h
  cases h

/-- The next continuation is taken. -/
theorem accept_next (hlen : packet.length = PRO_FIDO_PACKET_SIZE)
    (hchannel : readChannel packet = channel) (hsequence : sequence < 128)
    (hhead : packet.getD 4 0 = UInt8.ofNat sequence) :
    (collecting channel command sequence got missing).accept packet
      = (collecting channel command (sequence + 1) got missing).take
          packet 5 := by
  obtain ⟨hbit, hnat⟩ := continuation_head hsequence
  have hown : ¬ readChannel packet
      ≠ (collecting channel command sequence got missing).channel :=
    not_not.mpr hchannel
  rw [accept, if_neg (by simp [collecting, hlen]), if_neg hown]
  dsimp only
  rw [hhead, if_neg (not_not.mpr hbit), if_neg]
  · rfl
  · rw [hnat]
    simp [collecting]
    omega

/-- Nothing else is. -/
theorem accept_next_inv (hchannel : readChannel packet = channel)
    {out : ProFidoHidResponse × Option (List UInt8)}
    (h : (collecting channel command sequence got missing).accept packet
      = .ok out) :
    sequence < 128 ∧ packet.getD 4 0 = UInt8.ofNat sequence := by
  have hlen := accept_length h
  have hown : ¬ readChannel packet
      ≠ (collecting channel command sequence got missing).channel :=
    not_not.mpr hchannel
  rw [accept, if_neg (by simp [collecting, hlen]), if_neg hown] at h
  dsimp only at h
  split at h
  · rw [if_pos (.inl rfl)] at h
    cases h
  split at h
  · cases h
  rename_i hhead
  simp only [collecting, Option.isNone_some, Bool.false_eq_true, false_or,
    not_or, not_not, not_lt] at hhead
  refine ⟨by omega, ?_⟩
  rw [← hhead.1, UInt8.ofNat_toNat]

theorem accept_initial {length : Nat}
    (hlen : packet.length = PRO_FIDO_PACKET_SIZE)
    (hchannel : readChannel packet = channel) (hcommand : command < 128)
    (hhead : packet.getD 4 0 = UInt8.ofNat (command ||| 0x80))
    (hlength : (packet.getD 5 0).toNat * 256 + (packet.getD 6 0).toNat = length)
    (hmax : length ≤ 7609) :
    ({ channel, command } : ProFidoHidResponse).accept packet
      = (collecting channel command 0 [] (List.replicate length 0)).take
          packet 7 := by
  obtain ⟨hbit, hnat⟩ := initial_head hcommand
  have hok : ¬ ((none : Option (List UInt8)).isSome = true
      ∨ (UInt8.ofNat (command ||| 0x80) &&& 0x7f).toNat ≠ command) := by
    rintro (h | h)
    · cases h
    · exact h hnat
  rw [accept, if_neg (by simp [hlen]), if_neg (not_not.mpr hchannel)]
  dsimp only
  rw [hhead, if_pos hbit, if_neg hok, hlength, if_neg (by omega)]
  rfl

theorem accept_initial_inv (hchannel : readChannel packet = channel)
    {out : ProFidoHidResponse × Option (List UInt8)}
    (h : ({ channel, command } : ProFidoHidResponse).accept packet = .ok out) :
    packet.getD 4 0 = UInt8.ofNat (command ||| 0x80)
      ∧ (packet.getD 5 0).toNat * 256 + (packet.getD 6 0).toNat ≤ 7609 := by
  have hlen := accept_length h
  rw [accept, if_neg (by simp [hlen]), if_neg (not_not.mpr hchannel)] at h
  dsimp only at h
  split at h
  · rename_i hbit
    split at h
    · cases h
    rename_i hcommand
    split at h
    · cases h
    rename_i hmax
    simp only [Option.isSome_none, Bool.false_eq_true, false_or, not_not]
      at hcommand
    exact ⟨hcommand ▸ head_of_initial hbit, not_lt.mp hmax⟩
  · rw [if_pos (.inl rfl)] at h
    cases h

end Accept

-- =============================== operations

theorem receive_of_accept {r : ProFidoHidResponse} {packet : List UInt8}
    {packets : List (List UInt8)} {r' : ProFidoHidResponse}
    (h : r.accept packet = .ok (r', none)) :
    r.receive (packet :: packets) = r'.receive packets := by
  rw [receive, h]

theorem receive_of_data {r : ProFidoHidResponse} {packet : List UInt8}
    {packets : List (List UInt8)} {r' : ProFidoHidResponse} {data : List UInt8}
    (h : r.accept packet = .ok (r', some data)) :
    r.receive (packet :: packets) = .ok (some data) := by
  rw [receive, h]

/-- An operation that returns a message has not failed at its first packet. -/
theorem accept_of_receive {r : ProFidoHidResponse} {packet : List UInt8}
    {packets : List (List UInt8)} {data : List UInt8}
    (h : r.receive (packet :: packets) = .ok (some data)) :
    ∃ r', r.accept packet = .ok (r', some data)
      ∨ r.accept packet = .ok (r', none)
        ∧ r'.receive packets = .ok (some data) := by
  rw [receive] at h
  cases haccept : r.accept packet with
  | error e =>
    rw [haccept] at h
    cases h
  | ok out =>
    obtain ⟨r', out⟩ := out
    rw [haccept] at h
    cases out with
    | none => exact ⟨r', .inr ⟨rfl, h⟩⟩
    | some d =>
      cases h
      exact ⟨r', .inl rfl⟩

theorem ofChannel_other {channel : Nat} {packet : List UInt8}
    (packets : List (List UInt8)) (h : readChannel packet ≠ channel) :
    ofChannel channel (packet :: packets) = ofChannel channel packets :=
  List.filter_cons_of_neg (by simpa using h)

theorem ofChannel_own {channel : Nat} {packet : List UInt8}
    (packets : List (List UInt8)) (h : readChannel packet = channel) :
    ofChannel channel (packet :: packets)
      = packet :: ofChannel channel packets :=
  List.filter_cons_of_pos (by simpa using h)

section Operations

variable {channel command : Nat}

/-- From the middle of a message: frames to come, as far as they have. -/
theorem receive_continuation :
    ∀ {packets : List (List UInt8)} {sequence : Nat}
      {got missing rest : List UInt8} {sent : List (List UInt8)},
      rest ≠ [] → missing.length = rest.length →
      rest.length ≤ 59 * (128 - sequence) →
      (∀ p ∈ packets, p.length = PRO_FIDO_PACKET_SIZE) →
      sent <+: continuationFrames channel sequence rest →
      Carry sent (ofChannel channel packets) →
      (collecting channel command sequence got missing).receive packets
        = .ok (if sent = continuationFrames channel sequence rest then
            some (got ++ rest) else none) := by
  intro packets
  induction packets with
  | nil =>
    intro sequence got missing rest sent hrest _ _ _ _ hcarry
    obtain rfl : sent = [] := List.forall₂_nil_right_iff.mp hcarry
    rw [continuationFrames, if_neg hrest, if_neg (List.cons_ne_nil _ _).symm]
    rfl
  | cons packet packets ih =>
    intro sequence got missing rest sent hrest hmissing hroom hlens hsent hcarry
    have hlen := hlens packet List.mem_cons_self
    have hlens' : ∀ p ∈ packets, p.length = PRO_FIDO_PACKET_SIZE :=
      fun p hp => hlens p (List.mem_cons_of_mem _ hp)
    by_cases hown : readChannel packet = channel
    swap
    · rw [ofChannel_other packets hown] at hcarry
      rw [receive_of_accept (accept_other rfl hlen hown)]
      exact ih hrest hmissing hroom hlens' hsent hcarry
    rw [ofChannel_own packets hown] at hcarry
    obtain ⟨frame, sent', hframe, hcarry', rfl⟩ :=
      List.forall₂_cons_right_iff.mp hcarry
    have hsize : PRO_FIDO_PACKET_SIZE - 5 = 59 := rfl
    rw [continuationFrames, if_neg hrest, hsize] at hsent ⊢
    obtain ⟨rfl, hsent'⟩ := List.cons_prefix_cons.mp hsent
    have hpos := List.length_pos_of_ne_nil hrest
    obtain ⟨padding, hpacket⟩ := hframe
    have hhead : packet.getD 4 0 = UInt8.ofNat sequence := by
      rw [← hpacket, List.append_assoc, List.append_assoc,
        List.getD_append_right _ _ _ _ (length_beBytes 4 _).le, length_beBytes]
      rfl
    have hdrop : packet.drop 5 = rest.take 59 ++ padding := by
      rw [← hpacket, List.append_assoc]
      exact List.drop_left' (by simp)
    have haccept := @accept_next channel command sequence got missing packet
      hlen hown (by omega) hhead
    rw [take_collecting _ _ _ _ _ _ _ hlen, hsize, hmissing] at haccept
    dsimp only at haccept
    by_cases hlast : rest.length ≤ 59
    · rw [if_pos hlast, hdrop, List.take_of_length_le hlast,
        List.take_left] at haccept
      rw [continuationFrames_done hlast] at hsent' ⊢
      rw [receive_of_data haccept, List.prefix_nil.mp hsent', if_pos rfl]
    · have hfull : packet.drop 5 = rest.take 59 := by
        have hlength := congrArg List.length hdrop
        rw [List.length_append, List.length_drop, hlen, List.length_take,
          PRO_FIDO_PACKET_SIZE] at hlength
        rw [hdrop, List.length_eq_zero_iff.mp (by omega : padding.length = 0),
          List.append_nil]
      rw [if_neg hlast, hfull] at haccept
      have hmore : rest.drop 59 ≠ [] := by
        apply List.ne_nil_of_length_pos
        rw [List.length_drop]
        omega
      have hrun := @ih (sequence + 1) (got ++ rest.take 59) (missing.drop 59)
        (rest.drop 59) sent' hmore
        (by rw [List.length_drop, List.length_drop, hmissing])
        (by rw [List.length_drop]; omega) hlens' hsent' hcarry'
      rw [receive_of_accept haccept, hrun, List.append_assoc,
        List.take_append_drop]
      simp only [List.cons.injEq, true_and]

theorem length_bytes {n : Nat} (h : n ≤ 7609) :
    (UInt8.ofNat (n >>> 8)).toNat * 256 + (UInt8.ofNat (n &&& 255)).toNat
      = n := by
  have hlow : n &&& 255 = n % 256 := Nat.and_two_pow_sub_one_eq_mod n 8
  rw [hlow, Nat.shiftRight_eq_div_pow, UInt8.toNat_ofNat', UInt8.toNat_ofNat']
  omega

theorem bytes_length {high low : UInt8} {n : Nat}
    (h : high.toNat * 256 + low.toNat = n) :
    high = UInt8.ofNat (n >>> 8) ∧ low = UInt8.ofNat (n &&& 255) := by
  have hlow : n &&& 255 = n % 256 := Nat.and_two_pow_sub_one_eq_mod n 8
  have hlt := low.toNat_lt
  rw [hlow, Nat.shiftRight_eq_div_pow, ← UInt8.toNat_inj, ← UInt8.toNat_inj,
    UInt8.toNat_ofNat', UInt8.toNat_ofNat']
  have hhigh := high.toNat_lt
  omega

/-- Frames of a message, as far as they have come. -/
theorem receive_frames (hcommand : command < 128) {data : List UInt8}
    (hdata : data.length ≤ 7609) {sent : List (List UInt8)}
    (hsent : sent <+: frames channel command data) :
    ∀ {packets : List (List UInt8)},
      (∀ p ∈ packets, p.length = PRO_FIDO_PACKET_SIZE) →
      Carry sent (ofChannel channel packets) →
      ({ channel, command } : ProFidoHidResponse).receive packets
        = .ok (if sent = frames channel command data then some data
            else none) := by
  intro packets
  induction packets with
  | nil =>
    intro _ hcarry
    obtain rfl : sent = [] := List.forall₂_nil_right_iff.mp hcarry
    rw [frames, if_neg (List.cons_ne_nil _ _).symm]
    rfl
  | cons packet packets ih =>
    intro hlens hcarry
    have hlen := hlens packet List.mem_cons_self
    have hlens' : ∀ p ∈ packets, p.length = PRO_FIDO_PACKET_SIZE :=
      fun p hp => hlens p (List.mem_cons_of_mem _ hp)
    by_cases hown : readChannel packet = channel
    swap
    · rw [ofChannel_other packets hown] at hcarry
      rw [receive_of_accept (accept_other rfl hlen hown)]
      exact ih hlens' hcarry
    rw [ofChannel_own packets hown] at hcarry
    obtain ⟨frame, sent', hframe, hcarry', rfl⟩ :=
      List.forall₂_cons_right_iff.mp hcarry
    have hsize : PRO_FIDO_PACKET_SIZE - 7 = 57 := rfl
    rw [frames, initialFrame, hsize] at hsent ⊢
    obtain ⟨rfl, hsent'⟩ := List.cons_prefix_cons.mp hsent
    obtain ⟨padding, hpacket⟩ := hframe
    have hhead : ∀ i, packet.getD (4 + i) 0
        = ([UInt8.ofNat (command ||| 0x80), UInt8.ofNat (data.length >>> 8),
            UInt8.ofNat (data.length &&& 255)]
          ++ (data.take 57 ++ padding)).getD i 0 := by
      intro i
      rw [← hpacket, List.append_assoc, List.append_assoc,
        List.getD_append_right _ _ _ _
          ((length_beBytes 4 _).le.trans (Nat.le_add_right _ _)),
        length_beBytes, Nat.add_sub_cancel_left]
    have hdrop : packet.drop 7 = data.take 57 ++ padding := by
      rw [← hpacket, List.append_assoc]
      exact List.drop_left' (by simp)
    have hhigh : packet.getD 5 0 = UInt8.ofNat (data.length >>> 8) := hhead 1
    have hlow : packet.getD 6 0 = UInt8.ofNat (data.length &&& 255) := hhead 2
    have hlength : (packet.getD 5 0).toNat * 256 + (packet.getD 6 0).toNat
        = data.length := by
      rw [hhigh, hlow]
      exact length_bytes hdata
    have haccept := accept_initial hlen hown hcommand (hhead 0) hlength hdata
    rw [take_collecting _ _ _ _ _ _ _ hlen, hsize, List.length_replicate] at haccept
    dsimp only [List.nil_append] at haccept
    by_cases hlast : data.length ≤ 57
    · rw [if_pos hlast, hdrop, List.take_of_length_le hlast,
        List.take_left] at haccept
      rw [continuationFrames_done hlast] at hsent' ⊢
      rw [receive_of_data haccept, List.prefix_nil.mp hsent', if_pos rfl]
    · have hfull : packet.drop 7 = data.take 57 := by
        have hlength := congrArg List.length hdrop
        rw [List.length_append, List.length_drop, hlen, List.length_take,
          PRO_FIDO_PACKET_SIZE] at hlength
        rw [hdrop, List.length_eq_zero_iff.mp (by omega : padding.length = 0),
          List.append_nil]
      rw [if_neg hlast, hfull] at haccept
      have hmore : data.drop 57 ≠ [] := by
        apply List.ne_nil_of_length_pos
        rw [List.length_drop]
        omega
      have hrun := @receive_continuation channel command packets 0
        (data.take 57) ((List.replicate data.length 0).drop 57) (data.drop 57)
        sent' hmore (by simp) (by rw [List.length_drop]; omega) hlens' hsent'
        hcarry'
      rw [receive_of_accept haccept, hrun, List.take_append_drop]
      simp only [List.cons.injEq, true_and]

/-- A message returned from the middle of it came in its frames. -/
theorem frames_of_continuation {data : List UInt8} :
    ∀ {packets : List (List UInt8)} {sequence : Nat} {got missing : List UInt8},
      missing ≠ [] →
      (collecting channel command sequence got missing).receive packets
        = .ok (some data) →
      ∃ used later rest, packets = used ++ later ∧ data = got ++ rest
        ∧ rest.length = missing.length
        ∧ Carry (continuationFrames channel sequence rest)
            (ofChannel channel used) := by
  intro packets
  induction packets with
  | nil =>
    intro _ _ _ _ hrun
    cases hrun
  | cons packet packets ih =>
    intro sequence got missing hmissing hrun
    obtain ⟨r', hrun⟩ := accept_of_receive hrun
    have hlen : packet.length = PRO_FIDO_PACKET_SIZE :=
      hrun.elim accept_length fun h => accept_length h.1
    by_cases hown : readChannel packet = channel
    swap
    · rw [accept_other rfl hlen hown] at hrun
      rcases hrun with h | ⟨h, hrun⟩
      · cases h
      · cases h
        obtain ⟨used, later, rest, rfl, hdata, hrest, hcarry⟩ :=
          ih hmissing hrun
        refine ⟨packet :: used, later, rest, rfl, hdata, hrest, ?_⟩
        rwa [ofChannel_other used hown]
    obtain ⟨hsequence, hhead⟩ : sequence < 128
        ∧ packet.getD 4 0 = UInt8.ofNat sequence :=
      hrun.elim (accept_next_inv hown) fun h => accept_next_inv hown h.1
    have hsize : PRO_FIDO_PACKET_SIZE - 5 = 59 := rfl
    have hpacket := split_five hlen
    rw [take_four hlen hown, hhead] at hpacket
    have hdrop : (packet.drop 5).length = 59 := by
      rw [List.length_drop, hlen]
      rfl
    rw [accept_next hlen hown hsequence hhead,
      take_collecting _ _ _ _ _ _ _ hlen, hsize] at hrun
    dsimp only at hrun
    have hpos := List.length_pos_of_ne_nil hmissing
    by_cases hlast : missing.length ≤ 59
    · rw [if_pos hlast] at hrun
      rcases hrun with h | ⟨h, -⟩
      · cases h
        have hrest : ((packet.drop 5).take missing.length).length
            = missing.length := by
          rw [List.length_take, hdrop, Nat.min_eq_left hlast]
        refine ⟨[packet], packets, _, rfl, rfl, hrest, ?_⟩
        rw [ofChannel_own [] hown, continuationFrames,
          if_neg (List.ne_nil_of_length_pos (hpos.trans_eq hrest.symm)), hsize,
          continuationFrames_done (hrest.trans_le hlast),
          List.take_of_length_le (hrest.trans_le hlast)]
        refine .cons ?_ .nil
        conv_rhs => rw [hpacket]
        exact List.prefix_append_right_inj _ |>.mpr (List.take_prefix _ _)
      · cases h
    · rw [if_neg hlast] at hrun
      rcases hrun with h | ⟨h, hrun⟩
      · cases h
      · cases h
        have hmore : missing.drop 59 ≠ [] := by
          apply List.ne_nil_of_length_pos
          rw [List.length_drop]
          omega
        obtain ⟨used, later, rest, rfl, hdata, hrest, hcarry⟩ := ih hmore hrun
        refine ⟨packet :: used, later, packet.drop 5 ++ rest, rfl, ?_, ?_, ?_⟩
        · rw [hdata, List.append_assoc]
        · rw [List.length_append, hrest, hdrop, List.length_drop]
          omega
        · rw [ofChannel_own used hown, continuationFrames,
            if_neg (List.ne_nil_of_length_pos
              (by rw [List.length_append]; omega)), hsize,
            List.take_left' hdrop, List.drop_left' hdrop]
          refine .cons ?_ hcarry
          rw [← hpacket]

/-- A message returned came in its frames. -/
theorem frames_of_receive (hcommand : command < 128) {data : List UInt8} :
    ∀ {packets : List (List UInt8)},
      ({ channel, command } : ProFidoHidResponse).receive packets
        = .ok (some data) →
      data.length ≤ 7609 ∧ ∃ used later, packets = used ++ later
        ∧ Carry (frames channel command data) (ofChannel channel used) := by
  intro packets
  induction packets with
  | nil =>
    intro hrun
    cases hrun
  | cons packet packets ih =>
    intro hrun
    obtain ⟨r', hrun⟩ := accept_of_receive hrun
    have hlen : packet.length = PRO_FIDO_PACKET_SIZE :=
      hrun.elim accept_length fun h => accept_length h.1
    by_cases hown : readChannel packet = channel
    swap
    · rw [accept_other rfl hlen hown] at hrun
      rcases hrun with h | ⟨h, hrun⟩
      · cases h
      · cases h
        obtain ⟨hmax, used, later, rfl, hcarry⟩ := ih hrun
        refine ⟨hmax, packet :: used, later, rfl, ?_⟩
        rwa [ofChannel_other used hown]
    obtain ⟨hhead, hmax⟩ : packet.getD 4 0 = UInt8.ofNat (command ||| 0x80)
        ∧ (packet.getD 5 0).toNat * 256 + (packet.getD 6 0).toNat ≤ 7609 :=
      hrun.elim (accept_initial_inv hown) fun h => accept_initial_inv hown h.1
    have hsize : PRO_FIDO_PACKET_SIZE - 7 = 57 := rfl
    generalize hn : (packet.getD 5 0).toNat * 256 + (packet.getD 6 0).toNat = n
      at hmax
    have hpacket := split_seven hlen
    obtain ⟨hhigh, hlow⟩ := bytes_length hn
    rw [take_four hlen hown, hhead, hhigh, hlow] at hpacket
    have hdrop : (packet.drop 7).length = 57 := by
      rw [List.length_drop, hlen]
      rfl
    rw [accept_initial hlen hown hcommand hhead hn hmax,
      take_collecting _ _ _ _ _ _ _ hlen, hsize, List.length_replicate] at hrun
    dsimp only [List.nil_append] at hrun
    by_cases hlast : n ≤ 57
    · rw [if_pos hlast] at hrun
      rcases hrun with h | ⟨h, -⟩
      · cases h
        have hdata : ((packet.drop 7).take n).length = n := by
          rw [List.length_take, hdrop, Nat.min_eq_left hlast]
        refine ⟨hdata.trans_le hmax, [packet], packets, rfl, ?_⟩
        rw [ofChannel_own [] hown, frames, initialFrame, hsize, hdata,
          continuationFrames_done (hdata.trans_le hlast),
          List.take_of_length_le (hdata.trans_le hlast)]
        refine .cons ?_ .nil
        conv_rhs => rw [hpacket]
        exact List.prefix_append_right_inj _ |>.mpr (List.take_prefix _ _)
      · cases h
    · rw [if_neg hlast] at hrun
      rcases hrun with h | ⟨h, hrun⟩
      · cases h
      · cases h
        have hmore : (List.replicate n (0 : UInt8)).drop 57 ≠ [] := by
          apply List.ne_nil_of_length_pos
          rw [List.length_drop, List.length_replicate]
          omega
        obtain ⟨used, later, rest, rfl, rfl, hrest, hcarry⟩ :=
          frames_of_continuation hmore hrun
        have hdata : (packet.drop 7 ++ rest).length = n := by
          rw [List.length_append, hrest, hdrop, List.length_drop,
            List.length_replicate]
          omega
        refine ⟨hdata.trans_le hmax, packet :: used, later, rfl, ?_⟩
        rw [ofChannel_own used hown, frames, initialFrame, hsize, hdata,
          List.take_left' hdrop, List.drop_left' hdrop]
        refine .cons ?_ hcarry
        rw [← hpacket]

end Operations

-- ================================== framing

/-- What is said of a channel and a command. `packets` are those of
    `proFidoPackets`; `fed` is one operation, ours among others. -/
structure Framed (channel command : Nat) : Prop where
  /-- The packets of every message are its frames and padding. -/
  packets : ∀ data : List UInt8, data.length ≤ 7609 →
    proFidoPackets channel command data
      = .ok ((frames channel command data).map padded)
  /-- While only the first `n` have come nothing is returned, and with the
      last of them exactly the message, whatever came between them. -/
  written : ∀ (data : List UInt8) (packets fed : List (List UInt8)) (n : Nat),
    data.length ≤ 7609 → proFidoPackets channel command data = .ok packets →
    (∀ packet ∈ fed, packet.length = PRO_FIDO_PACKET_SIZE) →
    ofChannel channel fed = packets.take n →
    ({ channel, command } : ProFidoHidResponse).receive fed
      = .ok (if packets.length ≤ n then some data else none)
  /-- What is returned came in all its frames and nothing else. -/
  read : ∀ (fed : List (List UInt8)) (data : List UInt8),
    ({ channel, command } : ProFidoHidResponse).receive fed = .ok (some data) →
    data.length ≤ 7609 ∧ ∃ used later, fed = used ++ later
      ∧ Carry (frames channel command data) (ofChannel channel used)

theorem carry_padded (frames : List (List UInt8)) :
    Carry frames (frames.map padded) := by
  rw [Carry, List.forall₂_map_right_iff]
  exact List.forall₂_same.mpr fun frame _ => List.prefix_append _ _

theorem proFidoPackets_eq {channel command : Nat} {data : List UInt8}
    (hchannel : 0 < channel ∧ channel ≤ PRO_FIDO_BROADCAST)
    (hcommand : 0 < command ∧ command ≤ 0x7f) (hdata : data.length ≤ 7609) :
    proFidoPackets channel command data
      = .ok ((frames channel command data).map padded) := by
  apply if_neg
  omega

theorem ctaphid_framing (channel command : Nat)
    (hchannel : 0 < channel ∧ channel ≤ PRO_FIDO_BROADCAST)
    (hcommand : 0 < command ∧ command ≤ 0x7f) : Framed channel command := by
  refine ⟨fun _ hdata => proFidoPackets_eq hchannel hcommand hdata,
    fun data packets fed n hdata hpackets hlens hfed => ?_,
    fun fed data h => frames_of_receive (by omega) h⟩
  rw [proFidoPackets_eq hchannel hcommand hdata] at hpackets
  cases hpackets
  have hcarry : Carry ((frames channel command data).take n)
      (ofChannel channel fed) := by
    rw [hfed, ← List.map_take]
    exact carry_padded _
  have hrun := @receive_frames channel command (by omega) data hdata _
    (List.take_prefix n _) fed hlens hcarry
  rw [hrun]
  simp only [List.take_eq_self_iff, List.length_map]

theorem ctaphid_framing_one_byte :
    Framed 1 6 ∧ ({ channel := 1, command := 6 } : ProFidoHidResponse).receive
        [padded (initialFrame 2 6 []), padded (initialFrame 1 6 [7])]
      = .ok (some [7]) := by
  have hframed := ctaphid_framing 1 6 (by decide) (by decide)
  have hpackets : proFidoPackets 1 6 [7]
      = .ok [padded (initialFrame 1 6 [7])] := by
    rw [hframed.packets [7] (by decide), frames,
      continuationFrames_done (by decide)]
    rfl
  exact ⟨hframed, hframed.written [7] _ _ 1 (by decide) hpackets
    (by decide) (by decide)⟩

/-- There are no packets of command 0. -/
theorem command_zero_refused :
    ¬ ∀ channel command, channel ≠ 0 → channel ≤ PRO_FIDO_BROADCAST →
      command < 0x80 → Framed channel command := by
  intro h
  have hframed := h 1 0 (by decide) (by decide) (by decide)
  have hpackets := hframed.packets [] (by decide)
  rw [proFidoPackets, if_pos (by decide)] at hpackets
  cases hpackets

end RemoteDesk.SecurityKey.CtapHid
