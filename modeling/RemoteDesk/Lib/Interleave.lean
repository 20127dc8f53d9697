/-
Lists dealt out in turn.

`interleave as bs` takes from `as` and `bs` in turn until one of them is
exhausted, then the rest of the other. What can be told apart by a test can be
dealt out again: sorted by the test, a beginning of an interleaving deals out
to itself (`dealt_back`).

`dedupe same` keeps the first of the elements that are the same; stopping at
`n` of them is cutting the list there (`keepNewUpTo_take`).
-/
import Mathlib

namespace RemoteDesk.Lib

variable {α : Type*}

-- ============================== in turn

def interleave : List α → List α → List α
  | [], bs => bs
  | as, [] => as
  | a :: as, b :: bs => a :: b :: interleave as bs

@[simp] theorem interleave_nil_left (bs : List α) : interleave [] bs = bs := by
  cases bs <;> rfl

@[simp] theorem interleave_nil_right (as : List α) : interleave as [] = as := by
  cases as <;> rfl

@[simp] theorem interleave_cons (a b : α) (as bs : List α) :
    interleave (a :: as) (b :: bs) = a :: b :: interleave as bs := rfl

theorem interleave_perm (as bs : List α) :
    (interleave as bs).Perm (as ++ bs) := by
  induction as generalizing bs with
  | nil => simp
  | cons a as ih =>
    cases bs with
    | nil => simp
    | cons b bs =>
      rw [interleave_cons, List.cons_append]
      apply List.Perm.cons
      exact ((ih bs).cons b).trans List.perm_middle.symm

/-- A beginning needs only beginnings. -/
theorem take_interleave_take (n : Nat) (as bs : List α) :
    (interleave (as.take n) (bs.take n)).take n
      = (interleave as bs).take n := by
  have general : ∀ n m k (as bs : List α), n ≤ m → n ≤ k →
      (interleave (as.take m) (bs.take k)).take n
        = (interleave as bs).take n := by
    intro n m k as
    induction as generalizing n m k with
    | nil =>
      intro bs _ hk
      rw [List.take_nil, interleave_nil_left, interleave_nil_left,
        List.take_take, Nat.min_eq_left hk]
    | cons a as ih =>
      intro bs hm hk
      cases bs with
      | nil =>
        rw [List.take_nil, interleave_nil_right, interleave_nil_right,
          List.take_take, Nat.min_eq_left hm]
      | cons b bs =>
        match n, m, k with
        | 0, _, _ => simp
        | 1, m + 1, k + 1 => simp
        | n + 2, m + 1, k + 1 =>
          simp only [List.take_succ_cons, interleave_cons]
          rw [ih n m k bs (by omega) (by omega)]
  exact general n n n as bs le_rfl le_rfl

/-- Sorted by a test that tells the lists apart, a beginning is a beginning of
each, and these deal out to it. -/
theorem dealt_back {left : α → Bool} {as bs : List α}
    (ha : ∀ a ∈ as, left a = true) (hb : ∀ b ∈ bs, left b = false) (n : Nat) :
    ∃ m k, ((interleave as bs).take n).filter left = as.take m
      ∧ (((interleave as bs).take n).filter fun x => !left x) = bs.take k
      ∧ interleave (as.take m) (bs.take k) = (interleave as bs).take n := by
  induction as generalizing bs n with
  | nil =>
    have hright : ∀ b ∈ bs.take n, left b = false :=
      fun b hmem => hb b (List.mem_of_mem_take hmem)
    refine ⟨0, n, ?_, ?_, by simp⟩
    · rw [interleave_nil_left]
      exact List.filter_eq_nil_iff.mpr fun b hmem => by simp [hright b hmem]
    · rw [interleave_nil_left]
      exact List.filter_eq_self.mpr fun b hmem => by simp [hright b hmem]
  | cons a as ih =>
    have hsame := ha a List.mem_cons_self
    cases bs with
    | nil =>
      have hleft : ∀ x ∈ (a :: as).take n, left x = true :=
        fun x hmem => ha x (List.mem_of_mem_take hmem)
      refine ⟨n, 0, ?_, ?_, by simp⟩
      · rw [interleave_nil_right]
        exact List.filter_eq_self.mpr hleft
      · rw [interleave_nil_right]
        exact List.filter_eq_nil_iff.mpr fun x hmem => by simp [hleft x hmem]
    | cons b bs =>
      have hother := hb b List.mem_cons_self
      match n with
      | 0 => exact ⟨0, 0, by simp⟩
      | 1 => exact ⟨1, 0, by simp [hsame]⟩
      | n + 2 =>
        obtain ⟨m, k, hm, hk, hdealt⟩ := ih
          (fun x hx => ha x (List.mem_cons_of_mem _ hx))
          (fun x hx => hb x (List.mem_cons_of_mem _ hx)) n
        refine ⟨m + 1, k + 1, ?_, ?_, ?_⟩
        · simp [hsame, hother, hm]
        · simp [hsame, hother, hk]
        · simp [hdealt]

theorem pairwise_interleave {Q : α → α → Prop} {as bs : List α}
    (ha : as.Pairwise Q) (hb : bs.Pairwise Q)
    (hab : ∀ a ∈ as, ∀ b ∈ bs, Q a b ∧ Q b a) :
    (interleave as bs).Pairwise Q := by
  induction as generalizing bs with
  | nil => rwa [interleave_nil_left]
  | cons a as ih =>
    cases bs with
    | nil => rwa [interleave_nil_right]
    | cons b bs =>
      obtain ⟨ha₁, ha₂⟩ := List.pairwise_cons.mp ha
      obtain ⟨hb₁, hb₂⟩ := List.pairwise_cons.mp hb
      have hcross := hab a List.mem_cons_self
      rw [interleave_cons, List.pairwise_cons, List.pairwise_cons]
      refine ⟨?_, ?_, ih ha₂ hb₂ fun x hx y hy => hab x
        (List.mem_cons_of_mem _ hx) y (List.mem_cons_of_mem _ hy)⟩
      · intro x hx
        rw [List.mem_cons, (interleave_perm as bs).mem_iff,
          List.mem_append] at hx
        rcases hx with rfl | hx | hx
        · exact (hcross x List.mem_cons_self).1
        · exact ha₁ x hx
        · exact (hcross x (List.mem_cons_of_mem _ hx)).1
      · intro x hx
        rw [(interleave_perm as bs).mem_iff, List.mem_append] at hx
        rcases hx with hx | hx
        · exact (hab x (List.mem_cons_of_mem _ hx) b List.mem_cons_self).2
        · exact hb₁ x hx

-- ========================== first of each

/-- `a` behind `kept`, unless it repeats one of them. -/
def keepNew (same : α → α → Bool) (kept : List α) (a : α) : List α :=
  if kept.any fun existing => same existing a then kept else kept ++ [a]

/-- `keepNew`, until there are `n`. -/
def keepNewUpTo (n : Nat) (same : α → α → Bool) (kept : List α) (a : α) :
    List α :=
  if n ≤ kept.length then kept else keepNew same kept a

def dedupe (same : α → α → Bool) (l : List α) : List α :=
  l.foldl (keepNew same) []

variable {same : α → α → Bool}

theorem dedupe_snoc (l : List α) (a : α) :
    dedupe same (l ++ [a]) = keepNew same (dedupe same l) a := by
  rw [dedupe, List.foldl_append]
  rfl

theorem keepNew_subset {kept : List α} {a x : α}
    (h : x ∈ keepNew same kept a) : x ∈ kept ∨ x = a := by
  unfold keepNew at h
  split at h
  · exact .inl h
  · rwa [List.mem_append, List.mem_singleton] at h

theorem mem_of_mem_dedupe {l : List α} {x : α} (h : x ∈ dedupe same l) :
    x ∈ l := by
  induction l using List.reverseRecOn with
  | nil => exact h
  | append_singleton l a ih =>
    rw [dedupe_snoc] at h
    rw [List.mem_append, List.mem_singleton]
    exact (keepNew_subset h).imp_left ih

theorem dedupe_pairwise (l : List α) :
    (dedupe same l).Pairwise fun a b => same a b = false := by
  induction l using List.reverseRecOn with
  | nil => exact List.Pairwise.nil
  | append_singleton l a ih =>
    rw [dedupe_snoc, keepNew]
    split
    · exact ih
    · rename_i hnew
      rw [List.pairwise_append]
      refine ⟨ih, List.pairwise_singleton _ _, ?_⟩
      intro x hx b hb
      rw [List.mem_singleton.mp hb]
      simpa using fun h => hnew (List.any_eq_true.mpr ⟨x, hx, h⟩)

/-- Of elements that differ all are kept. -/
theorem dedupe_eq_self {l : List α}
    (h : l.Pairwise fun a b => same a b = false) : dedupe same l = l := by
  induction l using List.reverseRecOn with
  | nil => rfl
  | append_singleton l a ih =>
    rw [List.pairwise_append] at h
    obtain ⟨hl, -, hla⟩ := h
    rw [dedupe_snoc, ih hl, keepNew, if_neg]
    rw [List.any_eq_true]
    rintro ⟨x, hx, hsame⟩
    rw [hla x hx a List.mem_cons_self] at hsame
    cases hsame

theorem dedupe_ne_nil {l : List α} (h : l ≠ []) : dedupe same l ≠ [] := by
  induction l using List.reverseRecOn with
  | nil => exact absurd rfl h
  | append_singleton l a ih =>
    rw [dedupe_snoc, keepNew]
    split
    · rename_i hany
      rintro hnil
      rw [hnil] at hany
      cases hany
    · simp

/-- Keeping only so many cuts the list. -/
theorem keepNewUpTo_take (n : Nat) (kept : List α) (a : α) :
    keepNewUpTo n same (kept.take n) a = (keepNew same kept a).take n := by
  unfold keepNewUpTo
  by_cases hn : n ≤ kept.length
  · rw [if_pos (by rw [List.length_take]; omega), keepNew]
    split
    · rfl
    · rw [List.take_append_of_le_length hn]
  · rw [if_neg (by rw [List.length_take]; omega),
      List.take_of_length_le (by omega), List.take_of_length_le]
    unfold keepNew
    split
    · omega
    · rw [List.length_append, List.length_singleton]
      omega

end RemoteDesk.Lib
