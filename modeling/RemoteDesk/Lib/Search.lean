/-
Looking for a pattern in a list.

`find pattern l` is the first place in `l` where `pattern` stands. A list
that is cut has the place exactly if the pattern ends before the cut
(`find_take`): whatever a reader finds in a beginning it finds in the whole,
and what it finds in the whole it misses in a beginning only until the
pattern is all there. A stretch that ends at the first place is a `Line`.
-/
import Mathlib

namespace RemoteDesk.Lib

variable {α : Type*} [DecidableEq α]

/-- The first place of `pattern`. -/
def find (pattern : List α) : List α → Option Nat
  | [] => if pattern = [] then some 0 else none
  | a :: l =>
    if pattern.isPrefixOf (a :: l) then some 0
    else (find pattern l).map (· + 1)

variable {pattern l : List α}

theorem find_take (hpattern : pattern ≠ []) (n : Nat) :
    find pattern (l.take n) = (find pattern l).filter
      fun k => k + pattern.length ≤ n := by
  induction l generalizing n with
  | nil => simp [find, hpattern]
  | cons a l ih =>
    cases n with
    | zero =>
      have hnone : ∀ k : Nat, ¬ k + pattern.length ≤ 0 := fun k h =>
        hpattern (List.eq_nil_of_length_eq_zero (by omega))
      rw [List.take_zero, find, if_neg hpattern, eq_comm,
        Option.filter_eq_none_iff]
      intro k _
      simpa using hnone k
    | succ n =>
      have htake : pattern <+: (a :: l).take (n + 1)
          ↔ pattern <+: a :: l ∧ pattern.length ≤ n + 1 :=
        List.prefix_take_iff
      rw [List.take_succ_cons, find, find, ← List.take_succ_cons]
      simp only [List.isPrefixOf_iff_prefix, htake]
      by_cases hfirst : pattern <+: a :: l
      · by_cases hlength : pattern.length ≤ n + 1
        · rw [if_pos ⟨hfirst, hlength⟩, if_pos hfirst, Option.filter_some,
            if_pos (by simpa using hlength)]
        · rw [if_neg (fun h => hlength h.2), if_pos hfirst, ih,
            Option.filter_some, if_neg (by simpa using hlength),
            Option.map_eq_none_iff, Option.filter_eq_none_iff]
          intro k _
          simp only [decide_eq_true_eq]
          omega
      · rw [if_neg (fun h => hfirst h.1), if_neg hfirst, ih]
        cases find pattern l with
        | none => rfl
        | some k =>
          rw [Option.map_some, Option.filter_some, Option.filter_some]
          by_cases hk : k + pattern.length ≤ n
          · rw [if_pos (by simpa using hk), if_pos (by simp; omega)]
            rfl
          · rw [if_neg (by simpa using hk), if_neg (by simp; omega)]
            rfl

/-- A pattern is where it is found. -/
theorem find_eq_some {k : Nat} (h : find pattern l = some k) :
    k + pattern.length ≤ l.length
      ∧ l = l.take k ++ pattern ++ l.drop (k + pattern.length) := by
  induction l generalizing k with
  | nil =>
    rw [find] at h
    split at h
    · next hpattern =>
        obtain rfl := Option.some.inj h
        simp [hpattern]
    · cases h
  | cons a l ih =>
    rw [find] at h
    split at h
    · next hfirst =>
        obtain rfl := Option.some.inj h
        obtain ⟨rest, hrest⟩ := List.isPrefixOf_iff_prefix.mp hfirst
        rw [← hrest]
        simp
    · obtain ⟨k', hk', rfl⟩ := Option.map_eq_some_iff.mp h
      obtain ⟨hle, hsplit⟩ := ih hk'
      refine ⟨by rw [List.length_cons]; omega, ?_⟩
      rw [show k' + 1 + pattern.length = (k' + pattern.length) + 1 by omega,
        List.take_succ_cons, List.drop_succ_cons, List.cons_append,
        List.cons_append, ← hsplit]

/-- A stretch with no pattern in it before the one that ends it. -/
def Line (pattern line : List α) : Prop :=
  find pattern (line ++ pattern) = some line.length

instance (pattern line : List α) : Decidable (Line pattern line) :=
  inferInstanceAs (Decidable (_ = _))

theorem find_line {line : List α} (hpattern : pattern ≠ [])
    (hline : Line pattern line) (rest : List α) :
    find pattern (line ++ pattern ++ rest) = some line.length := by
  have htake := find_take hpattern (l := line ++ pattern ++ rest)
    (line ++ pattern).length
  rw [List.take_left', Line] at *
  · rw [hline, eq_comm, Option.filter_eq_some_iff] at htake
    exact htake.1
  · rfl

/-- What is cut in front of the pattern that ends it is found no more. -/
theorem find_line_take {line rest : List α} (hpattern : pattern ≠ [])
    (hline : Line pattern line) {n : Nat}
    (hn : n < line.length + pattern.length) :
    find pattern ((line ++ pattern ++ rest).take n) = none := by
  rw [find_take hpattern, find_line hpattern hline, Option.filter_some,
    if_neg (by simpa using hn)]

theorem line_of_find {k : Nat} (hpattern : pattern ≠ [])
    (h : find pattern l = some k) : Line pattern (l.take k) := by
  obtain ⟨hle, hsplit⟩ := find_eq_some h
  have hlength : (l.take k).length = k := by
    rw [List.length_take]
    omega
  have htake : l.take k ++ pattern = l.take (k + pattern.length) := by
    conv_rhs => rw [hsplit]
    rw [List.take_left']
    rw [List.length_append, hlength]
  rw [Line, htake, find_take hpattern, h, Option.filter_some,
    if_pos (by simp), hlength]

end RemoteDesk.Lib
