/-
The phone geometry gate (rustdesk_phone_geometry_gate.h).

Four threads tell the gate what they have seen, each call under its lock, so
a run is a list of calls. The gate keeps the last well-formed display
notification and the last well-formed frame geometry since it was reset
(`Tracks.notified`, `Tracks.framed`), and two flags. `Presented` and
`Adopted` say what the flags stand for: a presentation that came when both
agreed, a commit behind it, and no other geometry since.

A texture fits a geometry up to one output pixel (`Fits`): software decoding
may downsample, and rounds.
-/
import RemoteDesk.Lib.Runs

namespace RemoteDesk.RustDesk.GeometryGate

open Lib

-- ================================ the gate

structure RustDeskPhoneGeometryGate where
  enabled : Bool := false
  presented : Bool := false
  committed : Bool := false
  epoch : UInt32 := 0
  display : Int := -1
  width : Int := 0
  height : Int := 0
  frameDisplay : Int := -1
  frameWidth : Int := 0
  frameHeight : Int := 0
deriving DecidableEq, Repr

def reset (enabled : Bool) : RustDeskPhoneGeometryGate := { enabled }

/-- One output pixel of rounding is allowed. -/
def Fits (textureWidth textureHeight width height : Int) : Prop :=
  |textureWidth * height - textureHeight * width| ≤ max width height

instance Fits.decidable (textureWidth textureHeight width height : Int) :
    Decidable (Fits textureWidth textureHeight width height) :=
  inferInstanceAs (Decidable (_ ≤ _))

namespace RustDeskPhoneGeometryGate

def observeDisplay (gate : RustDeskPhoneGeometryGate) (display : Int)
    (epoch : UInt32) (width height : Int) : RustDeskPhoneGeometryGate × Bool :=
  if !gate.enabled ∨ display < 0 ∨ epoch = 0 ∨ width ≤ 0 ∨ height ≤ 0 then
    (gate, false)
  else if gate.display = display ∧ gate.epoch = epoch ∧ gate.width = width
      ∧ gate.height = height then
    (gate, false)
  else
    ({ gate with
      display, epoch, width, height, presented := false, committed := false },
      true)

def observeFrame (gate : RustDeskPhoneGeometryGate)
    (display width height : Int) : RustDeskPhoneGeometryGate × Bool :=
  if !gate.enabled ∨ width ≤ 0 ∨ height ≤ 0 ∨ display < 0 then (gate, false)
  else if gate.frameDisplay = display ∧ gate.frameWidth = width
      ∧ gate.frameHeight = height then
    (gate, false)
  else
    ({ gate with
      frameDisplay := display, frameWidth := width, frameHeight := height
      presented := false, committed := false }, true)

def observePresented (gate : RustDeskPhoneGeometryGate) (frameEpoch : UInt32)
    (display encodedWidth encodedHeight textureWidth textureHeight : Int) :
    RustDeskPhoneGeometryGate :=
  if !gate.enabled ∨ frameEpoch = 0 ∨ frameEpoch ≠ gate.epoch
      ∨ display ≠ gate.display ∨ encodedWidth ≠ gate.width
      ∨ encodedHeight ≠ gate.height ∨ textureWidth ≤ 0 ∨ textureHeight ≤ 0
      ∨ gate.frameDisplay ≠ gate.display ∨ gate.frameWidth ≠ gate.width
      ∨ gate.frameHeight ≠ gate.height then
    gate
  else if Fits textureWidth textureHeight gate.width gate.height then
    { gate with presented := true }
  else gate

def commit (gate : RustDeskPhoneGeometryGate) (epoch : UInt32) :
    RustDeskPhoneGeometryGate × Bool :=
  if !gate.enabled ∨ epoch = 0 ∨ epoch ≠ gate.epoch ∨ !gate.presented then
    (gate, false)
  else ({ gate with committed := true }, true)

def allowed (gate : RustDeskPhoneGeometryGate) : Bool :=
  !gate.enabled || gate.committed

end RustDeskPhoneGeometryGate

inductive GateCall where
  | reset (enabled : Bool)
  | observeDisplay (display : Int) (epoch : UInt32) (width height : Int)
  | observeFrame (display width height : Int)
  | observePresented (frameEpoch : UInt32) (display encodedWidth encodedHeight
      textureWidth textureHeight : Int)
  | commit (epoch : UInt32)
deriving DecidableEq, Repr

def step (gate : RustDeskPhoneGeometryGate) :
    GateCall → RustDeskPhoneGeometryGate
  | .reset enabled => reset enabled
  | .observeDisplay display epoch width height =>
    (gate.observeDisplay display epoch width height).1
  | .observeFrame display width height =>
    (gate.observeFrame display width height).1
  | .observePresented frameEpoch display encodedWidth encodedHeight
      textureWidth textureHeight =>
    gate.observePresented frameEpoch display encodedWidth encodedHeight
      textureWidth textureHeight
  | .commit epoch => (gate.commit epoch).1

/-- A display or frame geometry that the gate took over. -/
def accepts (gate : RustDeskPhoneGeometryGate) : GateCall → Bool
  | .observeDisplay display epoch width height =>
    (gate.observeDisplay display epoch width height).2
  | .observeFrame display width height =>
    (gate.observeFrame display width height).2
  | _ => false

-- =================== what has been told it

structure Geometry where
  display : Int
  epoch : UInt32
  width : Int
  height : Int
deriving DecidableEq, Repr

structure Frame where
  display : Int
  width : Int
  height : Int
deriving DecidableEq, Repr

/-- The frame a geometry asks for. -/
def Geometry.frame (g : Geometry) : Frame := ⟨g.display, g.width, g.height⟩

namespace GateCall

/-- What a well-formed display notification names. -/
def shows : GateCall → Option Geometry
  | observeDisplay display epoch width height =>
    if display < 0 ∨ epoch = 0 ∨ width ≤ 0 ∨ height ≤ 0 then none
    else some ⟨display, epoch, width, height⟩
  | _ => none

/-- What a well-formed frame geometry names. -/
def frames : GateCall → Option Frame
  | observeFrame display width height =>
    if width ≤ 0 ∨ height ≤ 0 ∨ display < 0 then none
    else some ⟨display, width, height⟩
  | _ => none

def resets : GateCall → Bool
  | reset _ => true
  | _ => false

/-- The call brings no geometry other than this one. -/
def Keeps (g : Geometry) (call : GateCall) : Prop :=
  call.resets = false ∧ (∀ g' ∈ call.shows, g' = g)
    ∧ ∀ f ∈ call.frames, f = g.frame

end GateCall

def displayAfter (last : Option Geometry) (call : GateCall) :
    Option Geometry :=
  if call.resets then none else call.shows.or last

def frameAfter (last : Option Frame) (call : GateCall) : Option Frame :=
  if call.resets then none else call.frames.or last

/-- The last display notification since the last reset. -/
def lastDisplay (calls : List GateCall) : Option Geometry :=
  calls.foldl displayAfter none

/-- The last frame geometry since the last reset. -/
def lastFrame (calls : List GateCall) : Option Frame :=
  calls.foldl frameAfter none

/-- The display and the frames are of one geometry. -/
def Agree (calls : List GateCall) (g : Geometry) : Prop :=
  lastDisplay calls = some g ∧ lastFrame calls = some g.frame

/-- Among the calls behind `earlier` a texture was presented when both
agreed, and no other geometry came since. -/
def Presented (earlier : List GateCall) (g : Geometry)
    (calls : List GateCall) : Prop :=
  ∃ before after textureWidth textureHeight,
    calls = before ++ .observePresented g.epoch g.display g.width g.height
        textureWidth textureHeight :: after
      ∧ 0 < textureWidth ∧ 0 < textureHeight
      ∧ Fits textureWidth textureHeight g.width g.height
      ∧ Agree (earlier ++ before) g ∧ ∀ call ∈ after, call.Keeps g

/-- And behind that presentation its epoch was committed. -/
def Adopted (earlier : List GateCall) (g : Geometry)
    (calls : List GateCall) : Prop :=
  ∃ before after, calls = before ++ .commit g.epoch :: after
    ∧ Presented earlier g before ∧ ∀ call ∈ after, call.Keeps g

-- ============================ the invariant

/-- The display notification the gate keeps. -/
def RustDeskPhoneGeometryGate.notified (gate : RustDeskPhoneGeometryGate) :
    Option Geometry :=
  if gate.epoch = 0 then none
  else some ⟨gate.display, gate.epoch, gate.width, gate.height⟩

/-- The frame geometry the gate keeps. -/
def RustDeskPhoneGeometryGate.framed (gate : RustDeskPhoneGeometryGate) :
    Option Frame :=
  if gate.frameDisplay < 0 then none
  else some ⟨gate.frameDisplay, gate.frameWidth, gate.frameHeight⟩

theorem lastDisplay_snoc (calls : List GateCall) (call : GateCall) :
    lastDisplay (calls ++ [call]) = displayAfter (lastDisplay calls) call := by
  simp [lastDisplay]

theorem lastFrame_snoc (calls : List GateCall) (call : GateCall) :
    lastFrame (calls ++ [call]) = frameAfter (lastFrame calls) call := by
  simp [lastFrame]

theorem Presented.snoc {earlier calls : List GateCall} {g : Geometry}
    {call : GateCall} (h : Presented earlier g calls) (hc : call.Keeps g) :
    Presented earlier g (calls ++ [call]) := by
  obtain ⟨before, after, w, h, rfl, hw, hh, hfit, hagree, hafter⟩ := h
  refine ⟨before, after ++ [call], w, h, by simp, hw, hh, hfit, hagree, ?_⟩
  simpa [or_imp, forall_and] using ⟨hafter, hc⟩

theorem Adopted.snoc {earlier calls : List GateCall} {g : Geometry}
    {call : GateCall} (h : Adopted earlier g calls) (hc : call.Keeps g) :
    Adopted earlier g (calls ++ [call]) := by
  obtain ⟨before, after, rfl, hpresented, hafter⟩ := h
  refine ⟨before, after ++ [call], by simp, hpresented, ?_⟩
  simpa [or_imp, forall_and] using ⟨hafter, hc⟩

/-- What the gate knows of the calls so far. -/
structure Tracks (earlier calls : List GateCall)
    (gate : RustDeskPhoneGeometryGate) : Prop where
  shown : gate.epoch ≠ 0 → 0 ≤ gate.display
  notified : gate.enabled = true →
    lastDisplay (earlier ++ calls) = gate.notified
  framed : gate.enabled = true → lastFrame (earlier ++ calls) = gate.framed
  live : gate.presented = true → gate.enabled = true ∧ ∃ g,
    gate.notified = some g ∧ gate.framed = some g.frame
      ∧ Presented earlier g calls
  adopted : gate.committed = true → gate.presented = true
    ∧ ∀ g ∈ gate.notified, Adopted earlier g calls

section Step

variable {earlier calls : List GateCall} {gate : RustDeskPhoneGeometryGate}

/-- A call that leaves the gate alone says nothing new. -/
theorem Tracks.kept {call : GateCall} (ht : Tracks earlier calls gate)
    (hreset : call.resets = false)
    (hshows : gate.enabled = true → ∀ g ∈ call.shows, gate.notified = some g)
    (hframes : gate.enabled = true → ∀ f ∈ call.frames, gate.framed = some f) :
    Tracks earlier (calls ++ [call]) gate := by
  have hkeeps : gate.enabled = true → ∀ g, gate.notified = some g →
      gate.framed = some g.frame → call.Keeps g := by
    intro hon g hg hf
    refine ⟨hreset, fun g' hg' => ?_, fun f hf' => ?_⟩
    · have hsame := hshows hon g' hg'
      rw [hg] at hsame
      exact (Option.some.inj hsame).symm
    · have hsame := hframes hon f hf'
      rw [hf] at hsame
      exact (Option.some.inj hsame).symm
  refine ⟨ht.shown, fun hon => ?_, fun hon => ?_, fun hp => ?_, fun hc => ?_⟩
  · rw [← List.append_assoc, lastDisplay_snoc, ht.notified hon, displayAfter,
      hreset]
    cases hs : call.shows with
    | none => rfl
    | some g => exact (hshows hon g hs).symm
  · rw [← List.append_assoc, lastFrame_snoc, ht.framed hon, frameAfter, hreset]
    cases hs : call.frames with
    | none => rfl
    | some f => exact (hframes hon f hs).symm
  · obtain ⟨hon, g, hg, hf, hpresented⟩ := ht.live hp
    exact ⟨hon, g, hg, hf, hpresented.snoc (hkeeps hon g hg hf)⟩
  · obtain ⟨hp, hadopted⟩ := ht.adopted hc
    obtain ⟨hon, g, hg, hf, -⟩ := ht.live hp
    refine ⟨hp, fun g' hg' => ?_⟩
    obtain rfl : g = g' := Option.some.inj (hg.symm.trans hg')
    exact (hadopted g hg).snoc (hkeeps hon g hg hf)

theorem Tracks.reset (enabled : Bool) :
    Tracks earlier (calls ++ [.reset enabled]) (reset enabled) := by
  refine ⟨fun h => absurd rfl h, fun _ => ?_, fun _ => ?_, fun h => ?_,
    fun h => ?_⟩
  · rw [← List.append_assoc, lastDisplay_snoc]
    rfl
  · rw [← List.append_assoc, lastFrame_snoc]
    rfl
  · cases h
  · cases h

theorem Tracks.observeDisplay (ht : Tracks earlier calls gate)
    (display : Int) (epoch : UInt32) (width height : Int) :
    Tracks earlier (calls ++ [.observeDisplay display epoch width height])
      (gate.observeDisplay display epoch width height).1 := by
  unfold RustDeskPhoneGeometryGate.observeDisplay
  split
  · rename_i hbad
    refine ht.kept rfl (fun hon g hg => ?_) fun _ f hf => by cases hf
    rw [hon] at hbad
    rw [GateCall.shows, if_pos (by simpa using hbad)] at hg
    cases hg
  · rename_i hgood
    rw [not_or] at hgood
    have hshows : (GateCall.observeDisplay display epoch width height).shows
        = some ⟨display, epoch, width, height⟩ := if_neg hgood.2
    simp only [not_or, not_lt] at hgood
    split
    · rename_i hsame
      obtain ⟨rfl, rfl, rfl, rfl⟩ := hsame
      refine ht.kept rfl (fun _ g hg => ?_) fun _ f hf => by cases hf
      rw [hshows] at hg
      rw [← hg]
      exact if_neg hgood.2.2.1
    · refine ⟨fun _ => hgood.2.1, fun _ => ?_, fun hon => ?_, fun h => ?_,
        fun h => ?_⟩
      · rw [← List.append_assoc, lastDisplay_snoc, displayAfter, hshows]
        exact (if_neg hgood.2.2.1).symm
      · rw [← List.append_assoc, lastFrame_snoc, ht.framed hon]
        rfl
      · cases h
      · cases h

theorem Tracks.observeFrame (ht : Tracks earlier calls gate)
    (display width height : Int) :
    Tracks earlier (calls ++ [.observeFrame display width height])
      (gate.observeFrame display width height).1 := by
  unfold RustDeskPhoneGeometryGate.observeFrame
  split
  · rename_i hbad
    refine ht.kept rfl (fun _ g hg => by cases hg) fun hon f hf => ?_
    rw [hon] at hbad
    rw [GateCall.frames, if_pos (by simpa using hbad)] at hf
    cases hf
  · rename_i hgood
    rw [not_or] at hgood
    have hframes : (GateCall.observeFrame display width height).frames
        = some ⟨display, width, height⟩ := if_neg hgood.2
    simp only [not_or, not_lt] at hgood
    have hseen : ¬ display < 0 := not_lt.mpr hgood.2.2.2
    split
    · rename_i hsame
      obtain ⟨rfl, rfl, rfl⟩ := hsame
      refine ht.kept rfl (fun _ g hg => by cases hg) fun _ f hf => ?_
      rw [hframes] at hf
      rw [← hf]
      exact if_neg hseen
    · refine ⟨ht.shown, fun hon => ?_, fun _ => ?_, fun h => ?_, fun h => ?_⟩
      · rw [← List.append_assoc, lastDisplay_snoc, ht.notified hon]
        rfl
      · rw [← List.append_assoc, lastFrame_snoc, frameAfter, hframes]
        exact (if_neg hseen).symm
      · cases h
      · cases h

theorem Tracks.observePresented (ht : Tracks earlier calls gate)
    (frameEpoch : UInt32) (display encodedWidth encodedHeight textureWidth
      textureHeight : Int) :
    Tracks earlier (calls ++ [.observePresented frameEpoch display encodedWidth
        encodedHeight textureWidth textureHeight])
      (gate.observePresented frameEpoch display encodedWidth encodedHeight
        textureWidth textureHeight) := by
  have hkept := @ht.kept _ _ _ (.observePresented frameEpoch display
      encodedWidth encodedHeight textureWidth textureHeight)
    rfl (fun _ g hg => by cases hg) (fun _ f hf => by cases hf)
  unfold RustDeskPhoneGeometryGate.observePresented
  split
  · exact hkept
  · rename_i hgood
    simp only [not_or, not_not, not_le, Bool.not_eq_true', Bool.not_eq_false]
      at hgood
    obtain ⟨hon, hepoch, rfl, rfl, rfl, rfl, hw, hh, hframe⟩ := hgood
    split
    · rename_i hfit
      have hnotified : gate.notified
          = some ⟨gate.display, gate.epoch, gate.width, gate.height⟩ :=
        if_neg hepoch
      have hframed : gate.framed
          = some ⟨gate.display, gate.width, gate.height⟩ := by
        have hshown := ht.shown hepoch
        rw [RustDeskPhoneGeometryGate.framed, hframe.1, hframe.2.1, hframe.2.2,
          if_neg (not_lt.mpr hshown)]
      refine ⟨hkept.shown, hkept.notified, hkept.framed, fun _ => ?_,
        fun hc => ⟨rfl, (hkept.adopted hc).2⟩⟩
      refine ⟨hon, _, hnotified, hframed, calls, [], _, _, rfl, hw, hh, hfit,
        ⟨?_, ?_⟩, by simp⟩
      · rw [ht.notified hon, hnotified]
      · rw [ht.framed hon, hframed]
        rfl
    · exact hkept

theorem Tracks.commit (ht : Tracks earlier calls gate) (epoch : UInt32) :
    Tracks earlier (calls ++ [.commit epoch]) (gate.commit epoch).1 := by
  have hkept := @ht.kept _ _ _ (.commit epoch) rfl
    (fun _ g hg => by cases hg) (fun _ f hf => by cases hf)
  unfold RustDeskPhoneGeometryGate.commit
  split
  · exact hkept
  · rename_i hgood
    simp only [not_or, not_not, Bool.not_eq_true', Bool.not_eq_false] at hgood
    obtain ⟨-, hepoch, rfl, hp⟩ := hgood
    refine ⟨hkept.shown, hkept.notified, hkept.framed, hkept.live, fun _ => ?_⟩
    obtain ⟨-, g, hg, -, hpresented⟩ := ht.live hp
    refine ⟨hp, fun g' hg' => ?_⟩
    obtain rfl : g = g' := Option.some.inj (hg.symm.trans hg')
    have hsame : gate.epoch = g.epoch := by
      rw [RustDeskPhoneGeometryGate.notified, if_neg hepoch] at hg
      rw [← Option.some.inj hg]
    exact ⟨calls, [], by rw [hsame], hpresented, by simp⟩

theorem Tracks.step (ht : Tracks earlier calls gate) (call : GateCall) :
    Tracks earlier (calls ++ [call]) (step gate call) := by
  cases call with
  | reset enabled => exact .reset enabled
  | observeDisplay display epoch width height =>
    exact ht.observeDisplay display epoch width height
  | observeFrame display width height =>
    exact ht.observeFrame display width height
  | observePresented frameEpoch display encodedWidth encodedHeight textureWidth
      textureHeight =>
    exact ht.observePresented frameEpoch display encodedWidth encodedHeight
      textureWidth textureHeight
  | commit epoch => exact ht.commit epoch

/-- Behind a gate whose flags are down, any calls are tracked. -/
theorem Tracks.run (ht : Tracks earlier [] gate) (calls : List GateCall) :
    Tracks earlier calls (exec GeometryGate.step gate calls) := by
  induction calls using List.reverseRecOn with
  | nil => exact ht
  | append_singleton calls call ih =>
    rw [exec_append]
    exact ih.step call

end Step

-- ================================ adoption

theorem tracks_initial : Tracks [] [] {} := by
  refine ⟨fun h => absurd rfl h, fun h => ?_, fun h => ?_, fun h => ?_,
    fun h => ?_⟩
  · cases h
  · cases h
  · cases h
  · cases h

/-- The calls so far can be put aside where the flags are down. -/
theorem Tracks.restart {calls : List GateCall}
    {gate : RustDeskPhoneGeometryGate} (ht : Tracks [] calls gate)
    (hp : gate.presented = false) (hc : gate.committed = false) :
    Tracks calls [] gate := by
  refine ⟨ht.shown, fun hon => ?_, fun hon => ?_, fun h => ?_, fun h => ?_⟩
  · rw [List.append_nil]
    exact ht.notified hon
  · rw [List.append_nil]
    exact ht.framed hon
  · rw [hp] at h
    cases h
  · rw [hc] at h
    cases h

theorem Tracks.allowed {earlier calls : List GateCall}
    {gate : RustDeskPhoneGeometryGate} (ht : Tracks earlier calls gate)
    (hon : gate.enabled = true) (hallowed : gate.allowed = true) :
    ∃ g, Agree (earlier ++ calls) g ∧ Adopted earlier g calls := by
  have hc : gate.committed = true := by
    rw [RustDeskPhoneGeometryGate.allowed, hon] at hallowed
    exact hallowed
  obtain ⟨hp, hadopted⟩ := ht.adopted hc
  obtain ⟨-, g, hg, hf, -⟩ := ht.live hp
  refine ⟨g, ⟨?_, ?_⟩, hadopted g hg⟩
  · rw [ht.notified hon, hg]
  · rw [ht.framed hon, hf]

/-- A geometry that is taken over puts the flags down. -/
theorem accepted_flags {gate : RustDeskPhoneGeometryGate} {call : GateCall}
    (h : accepts gate call = true) :
    (step gate call).enabled = true ∧ (step gate call).presented = false
      ∧ (step gate call).committed = false := by
  cases call with
  | observeDisplay display epoch width height =>
    unfold accepts step at *
    unfold RustDeskPhoneGeometryGate.observeDisplay at *
    grind
  | observeFrame display width height =>
    unfold accepts step at *
    unfold RustDeskPhoneGeometryGate.observeFrame at *
    grind
  | reset enabled => cases h
  | observePresented _ _ _ _ _ _ => cases h
  | commit epoch => cases h

/-- An open gate has adopted the geometry it was told last, anew after
every change of it; and presentations and commits of another epoch change
nothing. -/
theorem phone_geometry_adopted :
    (∀ calls, let gate := exec step {} calls
      gate.enabled = true → gate.allowed = true →
        ∃ g, Agree calls g ∧ Adopted [] g calls)
    ∧ (∀ earlier call later, accepts (exec step {} earlier) call = true →
      let changed := exec step {} (earlier ++ [call])
      let gate := exec step changed later
      changed.allowed = false
        ∧ (gate.enabled = true → gate.allowed = true →
          ∃ g, Agree (earlier ++ [call] ++ later) g
            ∧ Adopted (earlier ++ [call]) g later))
    ∧ ∀ (gate : RustDeskPhoneGeometryGate) (epoch : UInt32),
      epoch ≠ gate.epoch → gate.commit epoch = (gate, false)
        ∧ ∀ display encodedWidth encodedHeight textureWidth textureHeight,
          gate.observePresented epoch display encodedWidth encodedHeight
            textureWidth textureHeight = gate := by
  refine ⟨fun calls hon hallowed => ?_, fun earlier call later hcall => ?_,
    fun gate epoch hother => ⟨?_, ?_⟩⟩
  · exact (tracks_initial.run calls).allowed hon hallowed
  · have hrun := tracks_initial.run (earlier ++ [call])
    have hsnoc : exec step {} (earlier ++ [call])
        = step (exec step {} earlier) call := by rw [exec_append]; rfl
    obtain ⟨hon, hp, hc⟩ := accepted_flags hcall
    rw [← hsnoc] at hon hp hc
    refine ⟨?_, fun hon' hallowed => ?_⟩
    · rw [RustDeskPhoneGeometryGate.allowed, hon, hc]
      rfl
    · exact ((hrun.restart hp hc).run later).allowed hon' hallowed
  · exact if_pos (.inr (.inr (.inl hother)))
  · intro display encodedWidth encodedHeight textureWidth textureHeight
    exact if_pos (.inr (.inr (.inl hother)))

/-- A presentation of exactly this aspect ratio. -/
def GateCall.ofRatio (width height : Int) : GateCall → Bool
  | .observePresented _ _ _ _ textureWidth textureHeight =>
    textureWidth * height = textureHeight * width
  | _ => false

/-- A texture one column too narrow opens the gate, and a malformed
notification behind it leaves it open. -/
theorem phone_geometry_rounded :
    let calls : List GateCall := [.reset true, .observeDisplay 0 7 1920 1080,
      .observeFrame 0 1920 1080, .observePresented 7 0 1920 1080 959 540,
      .commit 7, .observeDisplay 0 9 0 0]
    let gate := exec step {} calls
    gate.enabled = true ∧ gate.allowed = true
      ∧ lastDisplay calls = some ⟨0, 7, 1920, 1080⟩
      ∧ ∀ call ∈ calls, call.ofRatio 1920 1080 = false := by
  decide

end RemoteDesk.RustDesk.GeometryGate
