/-
The display field of an UltraVNC repeater (`vnc_rfb_protocol.cpp`).

A viewer names its target by a field of 250 bytes: `ID:`, the target, and zeros. The
builder checks the target and the parser the field, each with its own texts.
`repeater_round_trip` is that both accept the same fields.
-/
import RemoteDesk.Vnc.PixelFormat

namespace RemoteDesk.Vnc

/-- `kUltraVncRepeaterFieldBytes`. -/
def repeaterFieldBytes : Nat := 250

def isPrintableTargetByte (value : UInt8) : Bool :=
  decide (0x21 ≤ value) && decide (value ≤ 0x7e)

/-- `ID:`. -/
def fieldStart : Bytes := [73, 68, 58]

/-- The zeros behind a target. -/
def fieldPadding (target : Bytes) : Bytes :=
  List.replicate (repeaterFieldBytes - 3 - target.length) 0

/-- The field, and why there is none; it is zero then. -/
def buildRepeaterTargetField (target : Bytes) : Bytes × Option String :=
  let refused error := (List.replicate repeaterFieldBytes 0, some error)
  if target = [] then refused "UltraVNC Repeater target ID is empty"
  else if target.length > repeaterFieldBytes - 3 then
    refused "UltraVNC Repeater target ID is too long"
  else if target.any fun value => !isPrintableTargetByte value then
    refused "UltraVNC Repeater target ID contains a non-printable character"
  else (fieldStart ++ target ++ fieldPadding target, none)

/-- The target of a field, or why there is none. There may be no data. -/
def parseRepeaterTargetField : Option Bytes → Except String Bytes
  | none => .error "UltraVNC Repeater display field must be exactly 250 bytes"
  | some data =>
    let text := data.takeWhile (· ≠ 0)
    if data.length ≠ repeaterFieldBytes then
      .error "UltraVNC Repeater display field must be exactly 250 bytes"
    else if (data.drop text.length).any (· ≠ 0) then
      .error "UltraVNC Repeater display field has non-zero bytes after padding"
    else if text.length < 3 ∨ text.take 3 ≠ fieldStart then
      .error "UltraVNC Repeater display field must start with ID:"
    else if text.length = 3 then .error "UltraVNC Repeater target ID is empty"
    else if (text.drop 3).any fun value => !isPrintableTargetByte value then
      .error "UltraVNC Repeater target ID contains a non-printable character"
    else .ok (text.drop 3)

-- ================================= grammar

/-- What a target is. -/
structure IsTarget (target : Bytes) : Prop where
  nonempty : target ≠ []
  short : target.length ≤ repeaterFieldBytes - 3
  printable : ∀ value ∈ target, isPrintableTargetByte value = true

variable {target : Bytes}

theorem any_not_printable :
    (target.any fun value => !isPrintableTargetByte value) = false
      ↔ ∀ value ∈ target, isPrintableTargetByte value = true := by
  rw [List.any_eq_false]
  apply forall₂_congr
  intro value _
  rw [Bool.not_eq_true', Bool.not_eq_false]

/-- The builder accepts the targets, with their field. -/
theorem build_iff {field : Bytes} :
    buildRepeaterTargetField target = (field, none)
      ↔ IsTarget target ∧ field = fieldStart ++ target ++ fieldPadding target := by
  have hrefused : ∀ error : String,
      (List.replicate repeaterFieldBytes 0, some error) ≠ (field, none) :=
    fun error h => by cases h
  rw [buildRepeaterTargetField]
  by_cases hempty : target = []
  · rw [if_pos hempty]
    exact ⟨fun h => absurd h (hrefused _), fun h => absurd hempty h.1.nonempty⟩
  rw [if_neg hempty]
  by_cases hlong : target.length > repeaterFieldBytes - 3
  · rw [if_pos hlong]
    exact ⟨fun h => absurd h (hrefused _),
      fun h => absurd h.1.short (Nat.not_le_of_gt hlong)⟩
  rw [if_neg hlong]
  rcases hany : target.any fun value => !isPrintableTargetByte value
  · rw [if_neg Bool.false_ne_true]
    constructor
    · intro h
      exact ⟨⟨hempty, Nat.le_of_not_gt hlong, any_not_printable.1 hany⟩,
        (congrArg Prod.fst h).symm⟩
    · rintro ⟨-, rfl⟩
      rfl
  · rw [if_pos rfl]
    refine ⟨fun h => absurd h (hrefused _), fun h => ?_⟩
    rw [any_not_printable.2 h.1.printable] at hany
    exact Bool.noConfusion hany

theorem length_field (h : IsTarget target) :
    (fieldStart ++ target ++ fieldPadding target).length = repeaterFieldBytes := by
  have hshort := h.short
  have hstart : fieldStart.length = 3 := rfl
  rw [List.length_append, List.length_append, fieldPadding, List.length_replicate, hstart]
  rw [repeaterFieldBytes] at hshort ⊢
  omega

/-- Nothing before the padding is zero. -/
theorem text_of_field (h : IsTarget target) :
    (fieldStart ++ target ++ fieldPadding target).takeWhile (· ≠ 0)
      = fieldStart ++ target := by
  have hnonzero : ∀ value ∈ fieldStart ++ target, decide (value ≠ 0) = true := by
    intro value hvalue
    rcases List.mem_append.1 hvalue with hstart | htarget
    · have hbytes : ∀ byte ∈ fieldStart, byte ≠ 0 := by simp [fieldStart]
      exact decide_eq_true (hbytes value hstart)
    · have hprintable := h.printable value htarget
      rw [decide_eq_true_eq]
      rintro rfl
      exact Bool.noConfusion hprintable
  rw [List.takeWhile_append_of_pos hnonzero, fieldPadding, List.takeWhile_replicate,
    if_neg (by decide), List.append_nil]

/-- A field is its text and what is behind it. -/
theorem take_text (data : Bytes) :
    data.takeWhile (· ≠ 0) ++ data.drop (data.takeWhile (· ≠ 0)).length = data := by
  have htake : data.take (data.takeWhile (· ≠ 0)).length = data.takeWhile (· ≠ 0) :=
    List.prefix_iff_eq_take.1 (List.takeWhile_prefix _) |>.symm
  calc data.takeWhile (· ≠ 0) ++ data.drop (data.takeWhile (· ≠ 0)).length
      = data.take (data.takeWhile (· ≠ 0)).length
          ++ data.drop (data.takeWhile (· ≠ 0)).length := by rw [htake]
    _ = data := List.take_append_drop _ data

theorem drop_text {data : Bytes}
    (h : (data.drop (data.takeWhile (· ≠ 0)).length).any (· ≠ 0) = false) :
    data.drop (data.takeWhile (· ≠ 0)).length
      = List.replicate (data.length - (data.takeWhile (· ≠ 0)).length) 0 := by
  rw [List.eq_replicate_iff]
  refine ⟨List.length_drop, fun value hvalue => ?_⟩
  have hzero := List.any_eq_false.1 h value hvalue
  rw [decide_eq_true_eq, not_not] at hzero
  exact hzero

/-- The parser accepts the fields of the targets. -/
theorem parse_iff {data : Bytes} :
    parseRepeaterTargetField (some data) = .ok target
      ↔ IsTarget target ∧ data = fieldStart ++ target ++ fieldPadding target := by
  constructor
  · intro h
    rw [parseRepeaterTargetField] at h
    by_cases hlength : data.length ≠ repeaterFieldBytes
    · rw [if_pos hlength] at h
      cases h
    rw [if_neg hlength] at h
    push Not at hlength
    rcases hpad : (data.drop (data.takeWhile (· ≠ 0)).length).any (· ≠ 0) with _ | _
    case true =>
      rw [if_pos hpad] at h
      cases h
    rw [hpad, if_neg Bool.false_ne_true] at h
    by_cases hstart : (data.takeWhile (· ≠ 0)).length < 3
        ∨ (data.takeWhile (· ≠ 0)).take 3 ≠ fieldStart
    · rw [if_pos hstart] at h
      cases h
    rw [if_neg hstart] at h
    push Not at hstart
    by_cases hthree : (data.takeWhile (· ≠ 0)).length = 3
    · rw [if_pos hthree] at h
      cases h
    rw [if_neg hthree] at h
    rcases hprint : ((data.takeWhile (· ≠ 0)).drop 3).any
        fun value => !isPrintableTargetByte value with _ | _
    case true =>
      rw [if_pos hprint] at h
      cases h
    rw [hprint, if_neg Bool.false_ne_true] at h
    cases h
    have hpadding := drop_text hpad
    have hfield : data.takeWhile (· ≠ 0)
        = fieldStart ++ (data.takeWhile (· ≠ 0)).drop 3 := by
      rw [← hstart.2, List.take_append_drop]
    have hle := (List.takeWhile_prefix (· ≠ 0) (l := data)).length_le
    have htarget : ((data.takeWhile (· ≠ 0)).drop 3).length
        = (data.takeWhile (· ≠ 0)).length - 3 := List.length_drop
    refine ⟨⟨fun hempty => ?_, ?_, any_not_printable.1 hprint⟩, ?_⟩
    · rw [hempty, List.length_nil] at htarget
      omega
    · rw [htarget, ← hlength]
      omega
    · calc data
          = data.takeWhile (· ≠ 0)
              ++ data.drop (data.takeWhile (· ≠ 0)).length := (take_text data).symm
        _ = _ := by
            rw [← hfield, hpadding, fieldPadding, htarget, ← hlength]
            congr 2
            omega
  · rintro ⟨htarget, rfl⟩
    have hstart : (fieldStart ++ target).drop 3 = target := rfl
    have hlength : (fieldStart ++ target).length = target.length + 3 := by
      rw [List.length_append, Nat.add_comm]
      rfl
    have hpositive := List.length_pos_iff.2 htarget.nonempty
    have hzeros : (fieldPadding target).any (· ≠ 0) = false := by
      rw [List.any_eq_false]
      intro value hvalue
      rw [List.eq_of_mem_replicate hvalue]
      decide
    rw [parseRepeaterTargetField]
    show (if _ then _ else _) = _
    rw [text_of_field htarget, if_neg (not_not_intro (length_field htarget)),
      List.drop_left, hzeros, if_neg Bool.false_ne_true, hlength, if_neg (by
        rintro (hshort | htake)
        · omega
        · exact htake rfl), if_neg (by omega), hstart,
      any_not_printable.2 htarget.printable, if_neg Bool.false_ne_true]

/-- A target comes back from its field, and a field from its target. -/
theorem repeater_round_trip :
    (∀ target field, buildRepeaterTargetField target = (field, none) →
      parseRepeaterTargetField (some field) = .ok target)
    ∧ ∀ data target, parseRepeaterTargetField (some data) = .ok target →
      buildRepeaterTargetField target = (data, none) :=
  ⟨fun _ _ hbuilt => parse_iff.2 (build_iff.1 hbuilt),
    fun _ _ hparsed => build_iff.2 (parse_iff.1 hparsed)⟩

end RemoteDesk.Vnc
