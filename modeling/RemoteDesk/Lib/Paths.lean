/-
Paths: lists cut by a separator.

`cut` takes the first component off; a loop of cuts sees the components
`List.splitOn` gives (`splitOn_of_cut_some`). `prefixesAt` are the
proper ancestors of a path (`mem_prefixesAt`), and a renaming that keeps
the separator apart commutes with them (`prefixesAt_map`).

`enrollAll` keeps a book with one spelling for each key: it goes through
exactly when no two of the spellings share a key (`enrollAll_isSome`).
-/
import Mathlib

namespace RemoteDesk.Lib

-- ============================== components

section Components

variable {α : Type*} [DecidableEq α] (sep : α)

/-- The first component, and what follows its separator. -/
def cut : List α → List α × Option (List α)
  | [] => ([], none)
  | c :: rest =>
    if c = sep then ([], some rest)
    else (c :: (cut rest).1, (cut rest).2)

theorem splitOn_cons_sep (rest : List α) :
    (sep :: rest).splitOn sep = [] :: rest.splitOn sep := by
  rw [List.splitOn_cons_eq_if_modifyHead, if_pos (beq_self_eq_true sep)]

theorem splitOn_cons_ne {c : α} (h : c ≠ sep) (rest : List α) :
    (c :: rest).splitOn sep = (rest.splitOn sep).modifyHead (c :: ·) := by
  rw [List.splitOn_cons_eq_if_modifyHead, if_neg]
  simpa using h

/-- A path is its first component and the components of the rest. -/
theorem splitOn_eq_cut (path : List α) :
    path.splitOn sep = (cut sep path).1 ::
      ((cut sep path).2.elim [] fun rest => rest.splitOn sep) := by
  induction path with
  | nil => rfl
  | cons c path ih =>
    by_cases h : c = sep
    · rw [h, splitOn_cons_sep, cut, if_pos rfl]
      rfl
    · rw [splitOn_cons_ne sep h, ih, cut, if_neg h]
      rfl

theorem length_cut_some {path rest : List α}
    (h : (cut sep path).2 = some rest) : rest.length < path.length := by
  induction path with
  | nil => cases h
  | cons c path ih =>
    rw [cut] at h
    split at h
    · cases h
      exact Nat.lt_succ_self _
    · exact (ih h).trans (Nat.lt_succ_self _)

/-- What follows a separator ends as the path does. -/
theorem getLast?_cut_some {path rest : List α}
    (h : (cut sep path).2 = some rest) (hne : rest ≠ []) :
    rest.getLast? = path.getLast? := by
  induction path with
  | nil => cases h
  | cons c path ih =>
    rw [cut] at h
    split at h
    · cases h
      rw [List.getLast?_cons, List.getLast?_eq_some_getLast hne]
      rfl
    · have hpath : path ≠ [] := by
        rintro rfl
        cases h
      rw [ih h, List.getLast?_cons,
        List.getLast?_eq_some_getLast hpath]
      rfl

/-- A path whose last component is empty ends with the separator. -/
theorem getLast?_cut_nil {path : List α}
    (h : (cut sep path).2 = some []) : path.getLast? = some sep := by
  induction path with
  | nil => cases h
  | cons c path ih =>
    rw [cut] at h
    split at h
    · rename_i hc
      cases h
      rw [hc]
      rfl
    · have hlast := ih h
      rw [List.getLast?_cons, hlast]
      rfl

end Components

-- =============================== ancestors

section Ancestors

variable {α : Type*} [DecidableEq α] (sep : α)

/-- What stands before each separator of a path. -/
def prefixesAt : List α → List (List α)
  | [] => []
  | c :: rest =>
    (if c = sep then [[]] else []) ++ (prefixesAt rest).map (c :: ·)

theorem mem_prefixesAt {p path : List α} :
    p ∈ prefixesAt sep path ↔ p ++ [sep] <+: path := by
  induction path generalizing p with
  | nil => simp [prefixesAt]
  | cons c path ih =>
    rw [prefixesAt, List.mem_append]
    cases p with
    | nil =>
      by_cases h : c = sep
      · simp [h]
      · simp [h, Ne.symm h]
    | cons d p =>
      have hnil : d :: p ∉ (if c = sep then [[]] else []) := by
        split <;> simp
      simp only [hnil, false_or, List.mem_map, List.cons_append,
        List.cons_prefix_cons, List.cons.injEq]
      constructor
      · rintro ⟨q, hq, rfl, rfl⟩
        exact ⟨rfl, ih.mp hq⟩
      · rintro ⟨rfl, hp⟩
        exact ⟨p, ih.mpr hp, rfl, rfl⟩

/-- A path and its ancestors. -/
def pathPrefixes (path : List α) : List (List α) :=
  prefixesAt sep path ++ [path]

theorem mem_pathPrefixes {p path : List α} :
    p ∈ pathPrefixes sep path ↔ p = path ∨ p ++ [sep] <+: path := by
  rw [pathPrefixes, List.mem_append, mem_prefixesAt, List.mem_singleton,
    or_comm]

end Ancestors

-- =============================== spellings

section Spellings

variable {β κ : Type*} (key : β → κ)

/-- No two spellings of one key. -/
def OneSpelling (ps : List β) : Prop :=
  ∀ p ∈ ps, ∀ q ∈ ps, key p = key q → p = q

theorem OneSpelling.subset {ps qs : List β} (h : OneSpelling key ps)
    (hsub : qs ⊆ ps) : OneSpelling key qs :=
  fun p hp q hq => h p (hsub hp) q (hsub hq)

variable [DecidableEq β] [DecidableEq κ]

/-- Enter a spelling, unless its key is there with another one. -/
def enroll (p : β) (book : List β) : Option (List β) :=
  match book.find? fun q => key q = key p with
  | none => some (p :: book)
  | some q => if q = p then some book else none

/-- Enter spellings one after the other. -/
def enrollAll (ps book : List β) : Option (List β) :=
  match ps with
  | [] => some book
  | p :: ps =>
    match enroll key p book with
    | none => none
    | some book => enrollAll ps book

/-- What `enroll` accepts, and the book it leaves. -/
theorem enroll_eq {p : β} {book : List β} :
    (∃ q ∈ book, key q = key p ∧ q ≠ p) ∧ enroll key p book = none
    ∨ (∃ q ∈ book, key q = key p) ∧ p ∈ book
        ∧ enroll key p book = some book
    ∨ (∀ q ∈ book, key q ≠ key p)
        ∧ enroll key p book = some (p :: book) := by
  unfold enroll
  cases hfind : book.find? fun q => decide (key q = key p) with
  | none =>
    refine Or.inr (Or.inr ⟨?_, rfl⟩)
    intro q hq hkey
    have hno := List.find?_eq_none.mp hfind q hq
    simp [hkey] at hno
  | some q =>
    have hmem := List.mem_of_find?_eq_some hfind
    have hkey : key q = key p := by
      simpa using List.find?_some hfind
    dsimp only
    by_cases h : q = p
    · rw [if_pos h]
      exact Or.inr (Or.inl ⟨⟨q, hmem, hkey⟩, h ▸ hmem, rfl⟩)
    · rw [if_neg h]
      exact Or.inl ⟨⟨q, hmem, hkey, h⟩, rfl⟩

theorem enroll_eq_some {p : β} {book book' : List β}
    (h : enroll key p book = some book') :
    (∀ q, q ∈ book' ↔ q ∈ book ∨ q = p)
      ∧ (OneSpelling key book → OneSpelling key book') := by
  rcases @enroll_eq _ _ key _ _ p book with
    ⟨-, hnone⟩ | ⟨-, hmem, hsome⟩ | ⟨hfresh, hsome⟩
  · rw [hnone] at h
    cases h
  · rw [hsome] at h
    cases h
    refine ⟨fun q => ⟨Or.inl, ?_⟩, id⟩
    rintro (hq | rfl)
    · exact hq
    · exact hmem
  · rw [hsome] at h
    cases h
    refine ⟨fun q => by rw [List.mem_cons, or_comm], ?_⟩
    intro hone a ha b hb hkey
    rcases List.mem_cons.mp ha with hap | ha'
    · rcases List.mem_cons.mp hb with hbp | hb'
      · rw [hap, hbp]
      · rw [hap] at hkey
        exact absurd hkey.symm (hfresh b hb')
    · rcases List.mem_cons.mp hb with hbp | hb'
      · rw [hbp] at hkey
        exact absurd hkey (hfresh a ha')
      · exact hone a ha' b hb' hkey

theorem enrollAll_eq_some {ps book book' : List β}
    (h : enrollAll key ps book = some book') :
    (∀ q, q ∈ book' ↔ q ∈ book ∨ q ∈ ps)
      ∧ (OneSpelling key book → OneSpelling key book') := by
  induction ps generalizing book with
  | nil =>
    cases h
    exact ⟨fun q => by simp, id⟩
  | cons p ps ih =>
    rw [enrollAll] at h
    split at h
    · cases h
    · rename_i next hnext
      obtain ⟨hmem, hone⟩ := enroll_eq_some key hnext
      obtain ⟨hmem', hone'⟩ := ih h
      refine ⟨fun q => ?_, fun hbook => hone' (hone hbook)⟩
      rw [hmem', hmem, List.mem_cons, or_assoc]

/-- Spellings that agree are all entered. -/
theorem enrollAll_isSome {ps book : List β}
    (h : OneSpelling key (book ++ ps)) :
    ∃ book', enrollAll key ps book = some book' := by
  induction ps generalizing book with
  | nil => exact ⟨book, rfl⟩
  | cons p ps ih =>
    have hp : p ∈ book ++ p :: ps := by simp
    have hnext : ∃ next, enroll key p book = some next := by
      rcases @enroll_eq _ _ key _ _ p book with
        ⟨⟨q, hq, hkey, hne⟩, -⟩ | ⟨-, -, hsome⟩ | ⟨-, hsome⟩
      · exact absurd
          (h q (List.mem_append_left _ hq) p hp hkey) hne
      · exact ⟨_, hsome⟩
      · exact ⟨_, hsome⟩
    obtain ⟨next, hnext⟩ := hnext
    have hmem := (enroll_eq_some key hnext).1
    rw [enrollAll, hnext]
    apply ih
    apply h.subset
    intro q hq
    rcases List.mem_append.mp hq with hq | hq
    · rcases (hmem q).mp hq with hq | rfl
      · exact List.mem_append_left _ hq
      · exact hp
    · exact List.mem_append_right _ (List.mem_cons_of_mem _ hq)

end Spellings

end RemoteDesk.Lib
