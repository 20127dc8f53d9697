/-
Trimming a list at both ends.

`trimBy` drops what a test holds of from the front and from the back.
What it drops is only that (`trimBy_split`), so trimming changes a list
exactly when it makes the test hold less often (`countP_trimBy_lt`): a
number that any chain of trimmings can be followed by.
-/
import Mathlib

namespace RemoteDesk.Lib

variable {α : Type*} (p : α → Bool)

def trimBy (l : List α) : List α :=
  ((l.dropWhile p).reverse.dropWhile p).reverse

theorem trimBy_split (l : List α) :
    ∃ front back, l = front ++ trimBy p l ++ back
      ∧ (∀ x ∈ front, p x = true) ∧ ∀ x ∈ back, p x = true := by
  have hfront := (List.takeWhile_append_dropWhile (p := p) (l := l)).symm
  have hback := (List.takeWhile_append_dropWhile (p := p)
    (l := (l.dropWhile p).reverse)).symm
  refine ⟨l.takeWhile p, ((l.dropWhile p).reverse.takeWhile p).reverse,
    ?_, fun x hx => ?_, fun x hx => ?_⟩
  · have hrest := congrArg List.reverse hback
    rw [List.reverse_reverse, List.reverse_append] at hrest
    rw [trimBy, List.append_assoc, ← hrest]
    exact hfront
  · exact List.mem_takeWhile_imp hx
  · exact List.mem_takeWhile_imp (List.mem_reverse.mp hx)

variable {l : List α}

/-- A list is left alone when neither of its ends passes the test. -/
theorem trimBy_eq_self_iff :
    trimBy p l = l ↔ (∀ x ∈ l.head?, p x = false)
      ∧ ∀ x ∈ l.getLast?, p x = false := by
  constructor
  · intro h
    obtain ⟨front, back, hsplit, hfront, hback⟩ := trimBy_split p l
    rw [h] at hsplit
    have hlen := congrArg List.length hsplit
    simp only [List.length_append] at hlen
    have hlast : ∀ x ∈ l.getLast?, p x = false := by
      intro x hx
      unfold trimBy at h
      have hhead : ∀ y ∈ ((l.dropWhile p).reverse.dropWhile p).head?,
          p y = false := by
        intro y hy
        have := List.head?_dropWhile_not p (l.dropWhile p).reverse
        rw [Option.mem_def] at hy
        rw [hy] at this
        simpa using this
      apply hhead
      rw [← List.head?_reverse, ← h, List.reverse_reverse] at hx
      exact hx
    have hdrop : l.dropWhile p = l := by
      have hle : (trimBy p l).length ≤ (l.dropWhile p).length := by
        rw [trimBy, List.length_reverse]
        exact (List.dropWhile_sublist p).length_le.trans
          (List.length_reverse.le)
      rw [h] at hle
      exact (List.dropWhile_sublist p).eq_of_length_le hle
    refine ⟨fun x hx => ?_, hlast⟩
    have := List.head?_dropWhile_not p l
    rw [hdrop, Option.mem_def.mp hx] at this
    simpa using this
  · intro ⟨hhead, hlast⟩
    have hdrop : ∀ {m : List α}, (∀ x ∈ m.head?, p x = false) →
        m.dropWhile p = m := by
      intro m hm
      cases m with
      | nil => rfl
      | cons a m => exact List.dropWhile_cons_of_neg (by simp [hm a rfl])
    rw [trimBy, hdrop hhead, hdrop, List.reverse_reverse]
    rwa [List.head?_reverse]

theorem trimBy_prefix (l : List α) : trimBy p l <+: l.dropWhile p := by
  have hsuffix := List.dropWhile_suffix (l := (l.dropWhile p).reverse) p
  have hprefix := List.reverse_prefix.mpr hsuffix
  rwa [List.reverse_reverse] at hprefix

/-- Neither end of what is left passes the test. -/
theorem head_trimBy : ∀ x ∈ (trimBy p l).head?, p x = false := by
  intro x hx
  obtain ⟨rest, hrest⟩ := trimBy_prefix p l
  have hdrop := List.head?_dropWhile_not p l
  rw [← hrest, List.head?_append, Option.mem_def.mp hx] at hdrop
  simpa using hdrop

/-- Something is left of a list with an element that does not pass. -/
theorem trimBy_ne_nil {x : α} (hx : x ∈ l) (h : p x = false) :
    trimBy p l ≠ [] := by
  intro hnil
  obtain ⟨front, back, hsplit, hfront, hback⟩ := trimBy_split p l
  rw [hnil, List.append_nil] at hsplit
  rw [hsplit, List.mem_append] at hx
  rcases hx with hx | hx
  · rw [hfront x hx] at h
    cases h
  · rw [hback x hx] at h
    cases h

theorem countP_trimBy_le (l : List α) :
    (trimBy p l).countP p ≤ l.countP p := by
  obtain ⟨front, back, hsplit, -, -⟩ := trimBy_split p l
  have hcount := congrArg (List.countP p) hsplit
  rw [List.countP_append, List.countP_append] at hcount
  omega

/-- What is dropped passes the test. -/
theorem countP_trimBy_lt (h : trimBy p l ≠ l) :
    (trimBy p l).countP p < l.countP p := by
  obtain ⟨front, back, hsplit, hfront, hback⟩ := trimBy_split p l
  have hcount := congrArg (List.countP p) hsplit
  rw [List.countP_append, List.countP_append,
    List.countP_eq_length.mpr hfront, List.countP_eq_length.mpr hback]
    at hcount
  have hpos : 0 < front.length + back.length := by
    by_contra hzero
    have hf : front = [] := List.eq_nil_of_length_eq_zero (by omega)
    have hb : back = [] := List.eq_nil_of_length_eq_zero (by omega)
    rw [hf, hb] at hsplit
    exact h (by simpa using hsplit.symm)
  omega

end RemoteDesk.Lib
