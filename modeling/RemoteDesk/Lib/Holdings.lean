/-
What the places of a list hold after one of them is changed or one is
added behind them.
-/
import Mathlib

namespace RemoteDesk.Lib

variable {α : Type*} {l : List α}

/-- A list with one member replaced, looked up. -/
theorem getElem?_set_some {i j : Nat} {a b : α}
    (h : (l.set i a)[j]? = some b) :
    j = i ∧ b = a ∨ j ≠ i ∧ l[j]? = some b := by
  by_cases hji : j = i
  · subst hji
    have hlt : j < l.length := by
      have := (List.getElem?_eq_some_iff.mp h).1
      rwa [List.length_set] at this
    rw [List.getElem?_set_self hlt] at h
    exact .inl ⟨rfl, (Option.some.inj h).symm⟩
  · rw [List.getElem?_set_ne (Ne.symm hji)] at h
    exact .inr ⟨hji, h⟩

/-- A list with one more member, looked up. -/
theorem getElem?_append_one {j : Nat} {a b : α}
    (h : (l ++ [a])[j]? = some b) :
    l[j]? = some b ∨ j = l.length ∧ b = a := by
  by_cases hj : j < l.length
  · rw [List.getElem?_append_left hj] at h
    exact .inl h
  · rw [List.getElem?_append_right (by omega)] at h
    have hlt := (List.getElem?_eq_some_iff.mp h).1
    rw [List.length_singleton] at hlt
    have hj' : j = l.length := by omega
    rw [hj', Nat.sub_self] at h
    exact .inr ⟨hj', (Option.some.inj h).symm⟩

end RemoteDesk.Lib
