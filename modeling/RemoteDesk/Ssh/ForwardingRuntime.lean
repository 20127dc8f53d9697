/-
The runtimes of the SSH forwarding manager over whole runs.

`Sound` is what holds of a profile: its counts are those of the log since
its generation began (`Tally`), the limits of its configuration are kept,
and stopped it holds nothing. Each operation on a profile keeps it sound
(`Outcome.Keeps`), events about one profile leave the others alone
(`Sound.frame`), and `AllSound.step` puts the two together.
-/
import RemoteDesk.Ssh.ForwardingManager
import RemoteDesk.Endpoint.Canonical
import RemoteDesk.Lib.Runs

namespace RemoteDesk.Ssh.Forwarding

open Lib Endpoint

-- =============================== the tally

/-- The profile an event is about. -/
def ForwardingEvent.subject : ForwardingEvent → Option (List Nat)
  | .began id _ => some id
  | .ended id => some id
  | .acquired id => some id
  | .released id => some id
  | .recorded id _ => some id
  | .reset => none

/-- A runtime of the profile begins or ends. -/
def Ends (id : List Nat) : ForwardingEvent → Prop
  | .began id' _ => id' = id
  | .ended id' => id' = id
  | .reset => True
  | _ => False

def bytesOf (id : List Nat) : ForwardingEvent → Nat
  | .recorded id' bytes => if id' = id then bytes.toNat else 0
  | _ => 0

/-- What was granted since the generation of a profile began. -/
def Tally (log : List ForwardingEvent) (id : List Nat) (e : Entry) : Prop :=
  ∃ p q, log = p ++ .began id e.sessionGeneration :: q
    ∧ (∀ event ∈ q, ¬ Ends id event)
    ∧ (e.activeConnections : Int)
      = q.count (.acquired id) - q.count (.released id)
    ∧ e.transferredBytes.toNat = (q.map (bytesOf id)).sum

/-- What holds of a profile. -/
structure Sound (log : List ForwardingEvent) (id : List Nat) (e : Entry) :
    Prop where
  id_eq : e.config.id = id
  tally : e.sessionGeneration ≠ 0 → Tally log id e
  idle : e.sessionGeneration = 0 → e.activeConnections = 0
  connections : e.activeConnections ≤ e.config.maxConnections
  bytes : e.config.maxBytes ≠ 0 → e.transferredBytes ≤ e.config.maxBytes
  stopped : e.state = .stopped → e.sessionGeneration = 0
    ∧ e.activeConnections = 0 ∧ e.lastError = 0 ∧ e.actualBindHost = []
    ∧ e.actualBindPort = 0 ∧ e.actualBindFamily = 0

variable {log told : List ForwardingEvent} {id id' : List Nat}
  {e e' : Entry}

/-- Events that are none of a profile's leave its tally as it is. -/
theorem Tally.append (h : Tally log id e)
    (hends : ∀ event ∈ told, ¬ Ends id event)
    (hacquired : .acquired id ∉ told) (hreleased : .released id ∉ told)
    (hbytes : ∀ event ∈ told, bytesOf id event = 0) :
    Tally (log ++ told) id e := by
  obtain ⟨p, q, rfl, hq, hactive, hsum⟩ := h
  refine ⟨p, q ++ told, by simp, ?_, ?_, ?_⟩
  · intro event hevent
    rcases List.mem_append.mp hevent with hm | hm
    · exact hq event hm
    · exact hends event hm
  · rw [List.count_append, List.count_append,
      List.count_eq_zero_of_not_mem hacquired,
      List.count_eq_zero_of_not_mem hreleased]
    simpa using hactive
  · have hzero : (told.map (bytesOf id)).sum = 0 := by
      rw [List.sum_eq_zero_iff]
      intro n hn
      obtain ⟨event, hevent, rfl⟩ := List.mem_map.mp hn
      exact hbytes event hevent
    rw [List.map_append, List.sum_append, hzero]
    exact hsum

theorem Sound.frame (h : Sound log id' e)
    (htold : ∀ event ∈ told, event.subject = some id) (hne : id ≠ id') :
    Sound (log ++ told) id' e := by
  have hother : ∀ event ∈ told, event.subject ≠ some id' := by
    intro event hevent hsubject
    rw [htold event hevent] at hsubject
    exact hne (Option.some.inj hsubject)
  refine ⟨h.id_eq, fun hg => ?_, h.idle, h.connections, h.bytes, h.stopped⟩
  refine (h.tally hg).append ?_ ?_ ?_ ?_
  · intro event hevent hends
    have hsome := htold event hevent
    cases event with
    | began i g => exact hother _ hevent (congrArg some hends)
    | ended i => exact hother _ hevent (congrArg some hends)
    | reset => cases hsome
    | acquired i => cases hends
    | released i => cases hends
    | recorded i b => cases hends
  · exact fun hm => hother _ hm rfl
  · exact fun hm => hother _ hm rfl
  · intro event hevent
    cases event with
    | recorded i b =>
      rw [bytesOf, if_neg]
      exact fun hi => hother _ hevent (congrArg some hi)
    | _ => rfl

/-- A runtime goes on in another state. -/
theorem Sound.moved (h : Sound log id e) (hstate : e'.state ≠ .stopped)
    (hconfig : e'.config = e.config)
    (hgeneration : e'.sessionGeneration = e.sessionGeneration)
    (hactive : e'.activeConnections = e.activeConnections)
    (hbytes : e'.transferredBytes = e.transferredBytes) :
    Sound (log ++ []) id e' := by
  rw [List.append_nil]
  obtain ⟨hid, htally, hidle, hconn, hlimit, -⟩ := h
  refine ⟨by rw [hconfig, hid], ?_, ?_, ?_, ?_, fun hs => absurd hs hstate⟩
  · rw [hgeneration]
    intro hg
    obtain ⟨p, q, hlog, hends, hcount, hsum⟩ := htally hg
    exact ⟨p, q, by rw [hgeneration, hlog], hends, by rw [hactive, hcount],
      by rw [hbytes, hsum]⟩
  · rwa [hgeneration, hactive]
  · rwa [hconfig, hactive]
  · rwa [hconfig, hbytes]

/-- What an operation on a sound profile puts in its place. -/
def Outcome.Keeps (o : Outcome) (log : List ForwardingEvent)
    (id : List Nat) : Prop :=
  ∀ e told, o.change = some (e, told) → Sound (log ++ told) id e
    ∧ ∀ event ∈ told, event.subject = some id

theorem Outcome.keeps_none (result : SshForwardingResult) :
    Outcome.Keeps ⟨result, none⟩ log id := by
  intro e told h
  cases h

theorem Outcome.keeps_some {result : SshForwardingResult}
    (h : Sound (log ++ told) id e)
    (htold : ∀ event ∈ told, event.subject = some id) :
    Outcome.Keeps ⟨result, some (e, told)⟩ log id := by
  intro e' told' heq
  obtain ⟨rfl, rfl⟩ := Prod.mk.inj (Option.some.inj heq)
  exact ⟨h, htold⟩

-- ========================== the operations

namespace Entry

variable {g now : Nat}

theorem generationMatches_iff :
    e.generationMatches g = true ↔ g ≠ 0 ∧ e.sessionGeneration = g := by
  simp [generationMatches]

theorem start_keeps (h : Sound log id e) (hg : g ≠ 0) :
    (e.start g now).Keeps log id := by
  unfold start
  split
  · exact Outcome.keeps_none _
  split
  · apply Outcome.keeps_some
    · apply h.moved <;> simp
    · simp
  split
  · exact Outcome.keeps_none _
  · rename_i hidle
    simp only [not_or, not_not] at hidle
    apply Outcome.keeps_some
    · refine ⟨h.id_eq, fun _ => ⟨log, [], ?_, by simp, ?_, rfl⟩,
        fun h0 => absurd h0 hg, h.connections, fun _ => ?_, ?_⟩
      · rw [h.id_eq]
        rfl
      · simpa [unbind] using hidle.2
      · exact UInt64.zero_le
      · intro hs
        cases hs
    · rw [h.id_eq]
      simp [ForwardingEvent.subject]

theorem markListening_keeps (h : Sound log id e) (host : List Nat)
    (port family : Int) :
    (e.markListening g host port family).Keeps log id := by
  unfold markListening
  split
  · exact Outcome.keeps_none _
  split
  · exact Outcome.keeps_none _
  split
  · exact Outcome.keeps_none _
  · apply Outcome.keeps_some
    · apply h.moved <;> simp
    · simp

theorem fail_keeps (h : Sound log id e) (error : Int) :
    (e.fail g error).Keeps log id := by
  unfold fail
  split
  · exact Outcome.keeps_none _
  split
  · exact Outcome.keeps_none _
  · apply Outcome.keeps_some
    · apply h.moved <;> simp
    · simp

theorem requestStop_keeps (h : Sound log id e) :
    (e.requestStop g).Keeps log id := by
  unfold requestStop
  split
  · exact Outcome.keeps_none _
  split
  · exact Outcome.keeps_none _
  · apply Outcome.keeps_some
    · apply h.moved <;> simp
    · simp

theorem completeStop_keeps (h : Sound log id e) :
    e.completeStop.Keeps log id := by
  unfold completeStop
  split
  · exact Outcome.keeps_none _
  split
  · exact Outcome.keeps_none _
  · rename_i hactive _
    rw [not_not] at hactive
    apply Outcome.keeps_some
    · exact ⟨h.id_eq, fun hg => absurd rfl hg, fun _ => hactive,
        h.connections, h.bytes, fun _ => ⟨rfl, hactive, rfl, rfl, rfl, rfl⟩⟩
    · rw [h.id_eq]
      simp [ForwardingEvent.subject]

theorem checkRuntimeLimitsLocked_keeps (h : Sound log id e) :
    (e.checkRuntimeLimitsLocked g now).Keeps log id := by
  unfold checkRuntimeLimitsLocked
  split
  · exact Outcome.keeps_none _
  split
  · exact Outcome.keeps_none _
  split
  · apply Outcome.keeps_some
    · apply h.moved <;> simp
    · simp
  split
  · apply Outcome.keeps_some
    · apply h.moved <;> simp
    · simp
  · exact Outcome.keeps_none _

theorem checkRuntimeLimits_keeps (h : Sound log id e) :
    (e.checkRuntimeLimits g now).Keeps log id := by
  unfold checkRuntimeLimits
  split
  · exact Outcome.keeps_none _
  · exact checkRuntimeLimitsLocked_keeps h

theorem not_ends_acquired : ¬ Ends id (.acquired id') := fun h => h
theorem not_ends_released : ¬ Ends id (.released id') := fun h => h
theorem not_ends_recorded {bytes : UInt64} :
    ¬ Ends id (.recorded id' bytes) := fun h => h

theorem acquireConnection_keeps (h : Sound log id e) :
    (e.acquireConnection g now).Keeps log id := by
  unfold acquireConnection
  dsimp only
  split
  · exact Outcome.keeps_none _
  rename_i hmatches
  split
  · exact checkRuntimeLimitsLocked_keeps h
  split
  · exact Outcome.keeps_none _
  split
  · exact Outcome.keeps_none _
  · rename_i hlistening hroom
    have hg : e.sessionGeneration ≠ 0 := by
      rw [Bool.not_eq_true', Bool.not_eq_false, generationMatches_iff]
        at hmatches
      rw [hmatches.2]
      exact hmatches.1
    apply Outcome.keeps_some
    · refine ⟨h.id_eq, fun _ => ?_, fun h0 => absurd h0 hg, ?_, h.bytes, ?_⟩
      · obtain ⟨p, q, hlog, hends, hcount, hsum⟩ := h.tally hg
        refine ⟨p, q ++ [.acquired id], ?_, ?_, ?_, ?_⟩
        · rw [hlog, h.id_eq]
          simp
        · intro event hevent
          rcases List.mem_append.mp hevent with hm | hm
          · exact hends event hm
          · rw [List.mem_singleton.mp hm]
            exact not_ends_acquired
        · simp only [List.count_append, List.count_singleton]
          simp
          omega
        · simpa [bytesOf] using hsum
      · show e.activeConnections + 1 ≤ e.config.maxConnections
        omega
      · intro hs
        rw [not_not] at hlistening
        exact absurd (hlistening.symm.trans hs) (by decide)
    · rw [h.id_eq]
      simp [ForwardingEvent.subject]

theorem releaseConnection_keeps (h : Sound log id e) :
    (e.releaseConnection g).Keeps log id := by
  unfold releaseConnection
  split
  · exact Outcome.keeps_none _
  rename_i hmatches
  split
  · exact Outcome.keeps_none _
  · rename_i hsome
    have hg : e.sessionGeneration ≠ 0 := by
      rw [Bool.not_eq_true', Bool.not_eq_false, generationMatches_iff]
        at hmatches
      rw [hmatches.2]
      exact hmatches.1
    apply Outcome.keeps_some
    · refine ⟨h.id_eq, fun _ => ?_, fun h0 => absurd h0 hg, ?_, h.bytes, ?_⟩
      · obtain ⟨p, q, hlog, hends, hcount, hsum⟩ := h.tally hg
        refine ⟨p, q ++ [.released id], ?_, ?_, ?_, ?_⟩
        · rw [hlog, h.id_eq]
          simp
        · intro event hevent
          rcases List.mem_append.mp hevent with hm | hm
          · exact hends event hm
          · rw [List.mem_singleton.mp hm]
            exact not_ends_released
        · simp only [List.count_append, List.count_singleton]
          simp
          omega
        · simpa [bytesOf] using hsum
      · have := h.connections
        show e.activeConnections - 1 ≤ e.config.maxConnections
        omega
      · intro hs
        exact absurd (h.stopped hs).1 hg
    · rw [h.id_eq]
      simp [ForwardingEvent.subject]

theorem recordBytes_keeps (h : Sound log id e) (bytes : UInt64) :
    (e.recordBytes g bytes now).Keeps log id := by
  have hoverrun : Outcome.Keeps ⟨.byteLimit, some ({ e with
      state := .failed, lastError := SshForwardingResult.byteLimit.code },
      [])⟩ log id := by
    apply Outcome.keeps_some
    · apply h.moved <;> simp
    · simp
  unfold recordBytes
  dsimp only
  split
  · exact Outcome.keeps_none _
  rename_i hmatches
  split
  · exact checkRuntimeLimitsLocked_keeps h
  split
  · exact Outcome.keeps_none _
  split
  · exact hoverrun
  split
  · exact hoverrun
  · rename_i hlistening hbudget hwrap
    have hg : e.sessionGeneration ≠ 0 := by
      rw [Bool.not_eq_true', Bool.not_eq_false, generationMatches_iff]
        at hmatches
      rw [hmatches.2]
      exact hmatches.1
    -- Nothing wraps: the sum stays below the largest value.
    have hroom : e.transferredBytes.toNat + bytes.toNat < 2 ^ 64 := by
      have hle : e.transferredBytes ≤ 0xffffffffffffffff := by
        rw [UInt64.le_iff_toNat_le]
        have := e.transferredBytes.toNat_lt
        show _ ≤ 2 ^ 64 - 1
        omega
      have hfits := UInt64.not_lt.mp hwrap
      rw [UInt64.le_iff_toNat_le, UInt64.toNat_sub_of_le _ _ hle] at hfits
      have hmax : UInt64.toNat 0xffffffffffffffff = 2 ^ 64 - 1 := rfl
      rw [hmax] at hfits
      have := e.transferredBytes.toNat_lt
      omega
    have hsum' : (e.transferredBytes + bytes).toNat
        = e.transferredBytes.toNat + bytes.toNat := by
      rw [UInt64.toNat_add, Nat.mod_eq_of_lt hroom]
    apply Outcome.keeps_some
    · refine ⟨h.id_eq, fun _ => ?_, fun h0 => absurd h0 hg, h.connections,
        fun hmax => ?_, ?_⟩
      · obtain ⟨p, q, hlog, hends, hcount, hsum⟩ := h.tally hg
        refine ⟨p, q ++ [.recorded id bytes], ?_, ?_, ?_, ?_⟩
        · rw [hlog, h.id_eq]
          simp
        · intro event hevent
          rcases List.mem_append.mp hevent with hm | hm
          · exact hends event hm
          · rw [List.mem_singleton.mp hm]
            exact not_ends_recorded
        · simp only [List.count_append, List.count_singleton]
          simpa using hcount
        · show (e.transferredBytes + bytes).toNat = _
          rw [hsum', hsum]
          simp [bytesOf]
      · have hle := h.bytes hmax
        have hfits : bytes ≤ e.config.maxBytes - e.transferredBytes :=
          UInt64.not_lt.mp fun hc => hbudget ⟨hmax, hc⟩
        show e.transferredBytes + bytes ≤ e.config.maxBytes
        rw [UInt64.le_iff_toNat_le] at hle hfits ⊢
        rw [UInt64.toNat_sub_of_le _ _ (h.bytes hmax)] at hfits
        omega
      · intro hs
        exact absurd (h.stopped hs).1 hg
    · rw [h.id_eq]
      simp [ForwardingEvent.subject]

theorem reset_sound (h : Sound log id e) :
    Sound (log ++ [.reset]) id e.reset :=
  ⟨h.id_eq, fun hg => absurd rfl hg, fun _ => rfl, Nat.zero_le _,
    fun _ => UInt64.zero_le, fun _ => ⟨rfl, rfl, rfl, rfl, rfl, rfl⟩⟩

end Entry

-- ============================= the manager

namespace SshForwardingManager

variable (inetPton : List Nat → Option (List Nat))

/-- An upsert that goes through and finds an actual bind address. -/
def overwritesBind (m : SshForwardingManager) (config : SshForwardingConfig) :
    Bool :=
  let (validation, normalized) := validateAndNormalize inetPton config
  validation = .ok
    && (m.entries.lookup normalized.id).any fun e =>
      e.startable && e ≠ e.unbind

/-- A start for another generation that finds a running profile past its
time. -/
def lateStart (m : SshForwardingManager) (id : List Nat)
    (sessionGeneration nowMs : Nat) : Bool :=
  (m.entries.lookup id).any fun e =>
    e.config.enabled && e.isExpired nowMs && !e.startable
      && e.sessionGeneration ≠ sessionGeneration

/-- Neither of the two. -/
def Clean (m : SshForwardingManager) : ForwardingOp → Prop
  | .upsert config => m.overwritesBind inetPton config = false
  | .start id g now => m.lateStart id g now = false
  | _ => True

instance (m : SshForwardingManager) (op : ForwardingOp) :
    Decidable (m.Clean inetPton op) := by
  unfold Clean
  split <;> infer_instance

end SshForwardingManager

/-- The profile and the generation a call carries. -/
def ForwardingOp.carried : ForwardingOp → Option (List Nat × Nat)
  | .start id g _ => some (id, g)
  | .markListening id g _ _ _ => some (id, g)
  | .fail id g _ => some (id, g)
  | .requestStop id g => some (id, g)
  | .acquireConnection id g _ => some (id, g)
  | .releaseConnection id g => some (id, g)
  | .recordBytes id g _ _ => some (id, g)
  | .checkRuntimeLimits id g _ => some (id, g)
  | _ => none

namespace SshForwardingManager

/-- A call that carries another generation than its profile has. A start
is one only where no runtime can begin. -/
def Stale (m : SshForwardingManager) (op : ForwardingOp) : Prop :=
  ∃ id g e, op.carried = some (id, g) ∧ m.entries.lookup id = some e
    ∧ e.sessionGeneration ≠ g
    ∧ ∀ now, op = .start id g now → e.startable = false

/-- Every profile is sound. -/
def AllSound (m : SshForwardingManager) : Prop :=
  ∀ id e, m.entries.lookup id = some e → Sound m.log id e

variable {inetPton : List Nat → Option (List Nat)}
  {m : SshForwardingManager} {id : List Nat}

theorem AllSound.put (h : m.AllSound) {e : Entry}
    {told : List ForwardingEvent} (he : Sound (m.log ++ told) id e)
    (htold : ∀ event ∈ told, event.subject = some id) :
    AllSound ⟨m.entries.insert id e, m.log ++ told⟩ := by
  intro id' e' hlookup
  by_cases hid : id' = id
  · subst hid
    rw [AList.lookup_insert] at hlookup
    rwa [← Option.some.inj hlookup]
  · rw [AList.lookup_insert_ne hid] at hlookup
    exact (h id' e' hlookup).frame htold (Ne.symm hid)

theorem AllSound.within (h : m.AllSound) {f : Entry → Outcome}
    (hf : ∀ e, Sound m.log id e → (f e).Keeps m.log id) :
    (m.within id f).2.AllSound := by
  unfold SshForwardingManager.within
  cases hlookup : m.entries.lookup id with
  | none => exact h
  | some e =>
    have hkeeps := hf e (h id e hlookup)
    cases houtcome : f e with
    | mk result change =>
      rw [houtcome] at hkeeps
      dsimp only
      rw [houtcome]
      cases change with
      | none => exact h
      | some p =>
        obtain ⟨hsound, htold⟩ := hkeeps p.1 p.2 rfl
        exact h.put hsound htold

theorem AllSound.upsert (h : m.AllSound) (config : SshForwardingConfig)
    (hclean : m.overwritesBind inetPton config = false) :
    (m.upsert inetPton config).2.AllSound := by
  unfold SshForwardingManager.upsert
  unfold overwritesBind at hclean
  cases hvalid : validateAndNormalize inetPton config with
  | mk validation normalized =>
  rw [hvalid] at hclean
  dsimp only at hclean ⊢
  split
  · exact h
  rename_i hok
  rw [not_not] at hok
  split
  · exact h
  split
  · exact h
  rename_i hconnections
  split
  · exact h
  · rename_i hstates
    have hbound : ∀ e ∈ m.entries.lookup normalized.id,
        e = e.unbind := by
      intro e he
      rw [Option.mem_def] at he
      rw [he] at hclean hconnections hstates
      simp only [Option.any_some, Bool.and_eq_true, decide_eq_true_eq,
        not_and, not_not] at hclean hconnections hstates
      have hstartable : e.startable = true := by
        unfold Entry.startable
        simp only [Bool.and_eq_true, Bool.or_eq_true, decide_eq_true_eq]
        exact ⟨or_iff_not_imp_left.mpr hstates, hconnections⟩
      simpa [hok, hstartable] using hclean
    apply h.put
    · refine ⟨rfl, fun hg => absurd rfl hg, fun _ => rfl, Nat.zero_le _,
        fun _ => UInt64.zero_le, fun _ => ⟨rfl, rfl, rfl, ?_⟩⟩
      cases hexisting : m.entries.lookup normalized.id with
      | none => exact ⟨rfl, rfl, rfl⟩
      | some e =>
        have hunbind := hbound e hexisting
        have hhost := congrArg Entry.actualBindHost hunbind
        have hport := congrArg Entry.actualBindPort hunbind
        have hfamily := congrArg Entry.actualBindFamily hunbind
        exact ⟨hhost, hport, hfamily⟩
    · simp [ForwardingEvent.subject]

theorem AllSound.remove (h : m.AllSound) (id : List Nat) :
    (m.remove id).2.AllSound := by
  unfold SshForwardingManager.remove
  split
  · exact h
  split
  · exact h
  · intro id' e' hlookup
    by_cases hid : id' = id
    · subst hid
      rw [AList.lookup_erase] at hlookup
      cases hlookup
    · rw [AList.lookup_erase_ne hid] at hlookup
      exact h id' e' hlookup

theorem lookup_reset (m : SshForwardingManager) (id : List Nat) :
    m.resetRuntimeAfterTransportClose.entries.lookup id
      = (m.entries.lookup id).map Entry.reset :=
  List.dlookup_map₂ (f := fun _ e => Entry.reset e) id

theorem AllSound.reset (h : m.AllSound) :
    m.resetRuntimeAfterTransportClose.AllSound := by
  intro id e hlookup
  rw [lookup_reset] at hlookup
  obtain ⟨e', hlookup', rfl⟩ := Option.map_eq_some_iff.mp hlookup
  exact Entry.reset_sound (h id e' hlookup')

/-- Every operation keeps the profiles sound. -/
theorem AllSound.step (h : m.AllSound) (op : ForwardingOp)
    (hclean : m.Clean inetPton op) : (m.step inetPton op).AllSound := by
  cases op with
  | upsert config => exact h.upsert config hclean
  | remove id => exact h.remove id
  | start id g now =>
    show (m.start id g now).2.AllSound
    unfold SshForwardingManager.start
    split
    · exact h
    · rename_i hg
      exact h.within fun e he => Entry.start_keeps he hg
  | markListening id g host port family =>
    exact h.within fun e he => Entry.markListening_keeps he host port family
  | fail id g error => exact h.within fun e he => Entry.fail_keeps he error
  | requestStop id g => exact h.within fun e he => Entry.requestStop_keeps he
  | completeStop id => exact h.within fun e he => Entry.completeStop_keeps he
  | acquireConnection id g now =>
    exact h.within fun e he => Entry.acquireConnection_keeps he
  | releaseConnection id g =>
    exact h.within fun e he => Entry.releaseConnection_keeps he
  | recordBytes id g bytes now =>
    exact h.within fun e he => Entry.recordBytes_keeps he bytes
  | checkRuntimeLimits id g now =>
    exact h.within fun e he => Entry.checkRuntimeLimits_keeps he
  | resetRuntimeAfterTransportClose => exact h.reset

-- ============================= stale calls

theorem within_unchanged {f : Entry → Outcome} {e : Entry}
    (hlookup : m.entries.lookup id = some e) (hf : (f e).change = none) :
    (m.within id f).2 = m := by
  unfold SshForwardingManager.within
  rw [hlookup]
  dsimp only
  cases houtcome : f e with
  | mk result change =>
    rw [houtcome] at hf
    cases hf
    rfl

/-- A stale call changes nothing. -/
theorem step_stale {op : ForwardingOp} (hstale : m.Stale op)
    (hclean : m.Clean inetPton op) : m.step inetPton op = m := by
  obtain ⟨id, g, e, hcarried, hlookup, hne, hstart⟩ := hstale
  have hmatches : e.generationMatches g = false := by
    rw [← Bool.not_eq_true, Entry.generationMatches_iff]
    exact fun h => hne h.2
  cases op with
  | start id' g' now =>
    obtain ⟨rfl, rfl⟩ := Prod.mk.inj (Option.some.inj hcarried)
    have hidle := hstart now rfl
    show (m.start id' g' now).2 = m
    unfold SshForwardingManager.start
    split
    · rfl
    · refine within_unchanged hlookup ?_
      have hlate : m.lateStart id' g' now = false := hclean
      unfold lateStart at hlate
      rw [hlookup, Option.any_some] at hlate
      unfold Entry.start
      split
      · rfl
      · rename_i hdisabled
        rw [Bool.not_eq_true', Bool.not_eq_false] at hdisabled
        have htime : e.isExpired now = false := by
          simpa [hdisabled, hidle, hne] using hlate
        have hrunning : (e.state ≠ .stopped ∧ e.state ≠ .failed)
            ∨ e.activeConnections ≠ 0 := by
          unfold Entry.startable at hidle
          simp only [Bool.and_eq_false_iff, Bool.or_eq_false_iff,
            decide_eq_false_iff_not] at hidle
          exact hidle
        rw [htime, if_neg Bool.false_ne_true, if_pos hrunning]
  | markListening id' g' host port family =>
    obtain ⟨rfl, rfl⟩ := Prod.mk.inj (Option.some.inj hcarried)
    exact within_unchanged hlookup (by simp [Entry.markListening, hmatches])
  | fail id' g' error =>
    obtain ⟨rfl, rfl⟩ := Prod.mk.inj (Option.some.inj hcarried)
    exact within_unchanged hlookup (by simp [Entry.fail, hmatches])
  | requestStop id' g' =>
    obtain ⟨rfl, rfl⟩ := Prod.mk.inj (Option.some.inj hcarried)
    refine within_unchanged hlookup ?_
    unfold Entry.requestStop
    rw [hmatches]
    split <;> rfl
  | acquireConnection id' g' now =>
    obtain ⟨rfl, rfl⟩ := Prod.mk.inj (Option.some.inj hcarried)
    exact within_unchanged hlookup
      (by simp [Entry.acquireConnection, hmatches])
  | releaseConnection id' g' =>
    obtain ⟨rfl, rfl⟩ := Prod.mk.inj (Option.some.inj hcarried)
    exact within_unchanged hlookup
      (by simp [Entry.releaseConnection, hmatches])
  | recordBytes id' g' bytes now =>
    obtain ⟨rfl, rfl⟩ := Prod.mk.inj (Option.some.inj hcarried)
    exact within_unchanged hlookup (by simp [Entry.recordBytes, hmatches])
  | checkRuntimeLimits id' g' now =>
    obtain ⟨rfl, rfl⟩ := Prod.mk.inj (Option.some.inj hcarried)
    exact within_unchanged hlookup
      (by simp [Entry.checkRuntimeLimits, hmatches])
  | upsert config => cases hcarried
  | remove id' => cases hcarried
  | completeStop id' => cases hcarried
  | resetRuntimeAfterTransportClose => cases hcarried

/-- An admitted connection finds its profile listening and in time. -/
theorem acquire_listening {g now : Nat}
    (h : (m.within id fun e => e.acquireConnection g now).1 = .ok) :
    ∃ e, m.entries.lookup id = some e ∧ e.sessionGeneration = g
      ∧ e.state = .listening ∧ e.isExpired now = false
      ∧ e.activeConnections < e.config.maxConnections := by
  unfold SshForwardingManager.within at h
  cases hlookup : m.entries.lookup id with
  | none =>
    rw [hlookup] at h
    cases h
  | some e =>
    rw [hlookup] at h
    have hresult : (e.acquireConnection g now).result = .ok := by
      cases houtcome : e.acquireConnection g now with
      | mk result change =>
        dsimp only at h
        rw [houtcome] at h
        cases change <;> exact h
    refine ⟨e, rfl, ?_⟩
    unfold Entry.acquireConnection at hresult
    split at hresult
    · cases hresult
    rename_i hmatches
    dsimp only at hresult
    split at hresult
    · exact absurd hresult ‹_›
    rename_i hlimits
    rw [not_not] at hlimits
    split at hresult
    · cases hresult
    rename_i hlistening
    split at hresult
    · cases hresult
    · rename_i hroom
      rw [not_not] at hlistening
      rw [Bool.not_eq_true', Bool.not_eq_false,
        Entry.generationMatches_iff] at hmatches
      refine ⟨hmatches.2, hlistening, ?_, by omega⟩
      by_contra htime
      unfold Entry.checkRuntimeLimitsLocked at hlimits
      split at hlimits
      · cases hlimits
      split at hlimits
      · cases hlimits
      · rw [if_pos (by simpa using htime)] at hlimits
        cases hlimits

/-- In a run that never puts a profile in place of one with an actual bind
address, and never starts a running profile past its time for another
generation, every profile is sound, stale calls change nothing, and
connections are admitted by listening, unexpired profiles only. -/
theorem forwarding_manager {ops : List ForwardingOp}
    (h : Meets (step inetPton) (Clean inetPton) {} ops) :
    let m := exec (step inetPton) {} ops
    m.AllSound
      ∧ (∀ op, m.Stale op → m.Clean inetPton op → m.step inetPton op = m)
      ∧ ∀ id g now,
        (m.call inetPton (.acquireConnection id g now)).1 = .ok →
        ∃ e, m.entries.lookup id = some e ∧ e.sessionGeneration = g
          ∧ e.state = .listening ∧ e.isExpired now = false
          ∧ e.activeConnections < e.config.maxConnections := by
  have hstart : AllSound {} := by
    intro id e hlookup
    cases hlookup
  have hsound := @Meets.invariant _ _ (step inetPton) _ AllSound
    (fun m op hm hc => hm.step op hc) _ _ h hstart
  exact ⟨hsound, fun op => step_stale, fun id g now => acquire_listening⟩

/-- The profile of the runs below. -/
def web : SshForwardingConfig :=
  { id := codes "web"
    bindPort := 8080
    targetHost := codes "10.0.0.7"
    targetPort := 80 }

/-- A runtime that takes two connections and gives one back. -/
def served : List ForwardingOp :=
  [.upsert web, .start (codes "web") 7 0,
    .markListening (codes "web") 7 (codes "127.0.0.1") 8080 2,
    .acquireConnection (codes "web") 7 1, .acquireConnection (codes "web") 7 2,
    .releaseConnection (codes "web") 6, .releaseConnection (codes "web") 7]

theorem forwarding_manager_served :
    let m := exec (step readIpv6) {} served
    m.AllSound
      ∧ (m.entries.lookup (codes "web")).map (·.activeConnections)
        = some 1 :=
  ⟨(@forwarding_manager readIpv6 served (by decide +kernel)).1, by decide +kernel⟩

/-- A failed runtime whose profile is put in again keeps its bind address,
and a start for another generation fails a listening one. -/
theorem stopped_with_address :
    let listening : List ForwardingOp :=
      [.upsert { web with expiresAtMs := 5 }, .start (codes "web") 7 0,
        .markListening (codes "web") 7 (codes "127.0.0.1") 8080 2]
    let again := exec (step readIpv6) {}
      (listening ++ [.fail (codes "web") 7 (-80), .upsert web])
    let late := exec (step readIpv6) {}
      (listening ++ [.start (codes "web") 8 6])
    (again.entries.lookup (codes "web")).map
        (fun e => (e.state, e.actualBindPort)) = some (.stopped, 8080)
      ∧ (late.entries.lookup (codes "web")).map
        (fun e => (e.state, e.sessionGeneration)) = some (.failed, 7) := by
  decide +kernel

end SshForwardingManager

end RemoteDesk.Ssh.Forwarding
