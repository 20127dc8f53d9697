/-
The numbers of a script, `NaN` apart.

`JsDouble` adds to the spelling of numbers (`JsNumber`) their order and the
few operations that a policy makes of them. The infinite ones are among
them: a token too large for a double reads as one of them, and no token
that `JSON.stringify` writes does, which writes `null` there
(`numberJson`). The two zeros are one.
-/
import RemoteDesk.Lib.Json

namespace RemoteDesk.Lib

/-- Tenths are written as literals of `Fin 11`. -/
instance neZero_eleven : NeZero 11 := ⟨by decide⟩

class JsDouble (D : Type) extends JsNumber D, LinearOrder D where
  isFinite : D → Bool
  /-- `Math.floor`. -/
  floor : D → D
  /-- One more, rounded. -/
  succ : D → D
  /-- The double nearest to so many tenths. -/
  tenths : Fin 11 → D
  zero_lt_one : ofInt 0 < ofInt 1
  floor_le : ∀ d, floor d ≤ d
  floor_mono : ∀ {d e}, d ≤ e → floor d ≤ floor e
  floor_floor : ∀ d, floor (floor d) = floor d
  floor_ofInt : ∀ n : Int, n.natAbs < 2 ^ 53 → floor (ofInt n) = ofInt n
  floor_succ : ∀ {d}, floor d = d → floor (succ d) = succ d
  le_succ : ∀ d, d ≤ succ d
  succ_ofInt : ∀ n : Int, n.natAbs < 2 ^ 53 → succ (ofInt n) = ofInt (n + 1)
  finite_ofInt : ∀ n : Int, n.natAbs < 2 ^ 53 → isFinite (ofInt n) = true
  finite_floor : ∀ {d}, isFinite d = true → isFinite (floor d) = true
  finite_succ : ∀ {d}, isFinite d = true → isFinite (succ d) = true
  finite_tenths : ∀ i, isFinite (tenths i) = true
  tenths_mono : ∀ {i j}, i ≤ j → tenths i ≤ tenths j

variable {D : Type} [JsDouble D]

/-- `Number.isInteger`. -/
def isInteger (d : D) : Bool :=
  JsDouble.isFinite d && decide (JsDouble.floor d = d)

/-- What `JSON.stringify` makes of a number. -/
def numberJson (d : D) : Json D :=
  if JsDouble.isFinite d then .num d else .null

theorem numberJson_finite {d : D} (h : JsDouble.isFinite d = true) :
    numberJson d = .num d := if_pos h

def isNumber (d : D) : Option (Json D) → Bool
  | some (.num e) => e = d
  | _ => false

/-- A script whose numbers are all integers. -/
instance : JsDouble Int where
  isFinite := fun _ => true
  floor := id
  succ := fun d => d + 1
  tenths := fun i => i.val / 10
  zero_lt_one := by decide
  floor_le := fun d => le_refl d
  floor_mono := id
  floor_floor := fun _ => rfl
  floor_ofInt := fun _ _ => rfl
  floor_succ := fun _ => rfl
  le_succ := fun d => by omega
  succ_ofInt := fun _ _ => rfl
  finite_ofInt := fun _ _ => rfl
  finite_floor := id
  finite_succ := id
  finite_tenths := fun _ => rfl
  tenths_mono := fun h => by
    have hval : (_ : Fin 11).val ≤ _ := h
    omega

end RemoteDesk.Lib
