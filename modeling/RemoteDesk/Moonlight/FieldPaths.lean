/-
Values at field paths.

What is set at a path is read back there (`getAt_setAt`), and nothing else
changes at a path that parts from it (`getAt_setAt_apart`). The paths a
record may write part from one another pairwise (`separate_allowed`).
-/
import RemoteDesk.Moonlight.ConflictPolicy
import RemoteDesk.Moonlight.NormalForm

namespace RemoteDesk.Moonlight

open Lib

-- ============================= get and set

/-- Two paths that go to different members of one object at some point. -/
def apart : List Text → List Text → Bool
  | k :: p, j :: q => if k = j then apart p q else true
  | _, _ => false

section Trees

variable {D : Type}

variable {path : List Text} {result value : Json D}

theorem getAt_setAt (hne : path ≠ []) {tree : Json D}
    (h : setAt value path tree = some result) :
    getAt path result = some value := by
  induction path generalizing tree result with
  | nil => exact absurd rfl hne
  | cons key rest ih =>
    cases tree with
    | obj members =>
      cases rest with
      | nil =>
        obtain rfl := Option.some.inj h
        rw [getAt, Members.lookup_put_same]
        rfl
      | cons next rest =>
        rw [setAt] at h
        · split at h
          · cases h
          · rw [Option.map_eq_some_iff] at h
            obtain ⟨child, hchild, rfl⟩ := h
            rw [getAt, Members.lookup_put_same]
            exact ih (by simp) hchild
        · simp
    | _ =>
      cases rest with
      | nil => cases h
      | cons next rest => cases h

theorem getAt_setAt_apart {other : List Text} (hapart : apart path other = true)
    {tree : Json D} (h : setAt value path tree = some result) :
    getAt other result = getAt other tree := by
  induction path generalizing tree result other with
  | nil => cases hapart
  | cons key rest ih =>
    cases other with
    | nil => cases hapart
    | cons j other =>
      rw [apart] at hapart
      cases tree with
      | obj members =>
        cases rest with
        | nil =>
          have hne : key ≠ j := by
            intro heq
            rw [if_pos heq] at hapart
            cases hapart
          obtain rfl := Option.some.inj h
          rw [getAt, getAt, Members.lookup_put_ne hne]
        | cons next rest =>
          rw [setAt] at h
          · split at h
            · cases h
            · rename_i child hlookup
              rw [Option.map_eq_some_iff] at h
              obtain ⟨child', hchild, rfl⟩ := h
              by_cases heq : key = j
              · subst heq
                rw [if_pos rfl] at hapart
                rw [getAt, getAt, Members.lookup_put_same, hlookup]
                exact ih hapart hchild
              · rw [getAt, getAt, Members.lookup_put_ne heq]
          · simp
      | _ =>
        cases rest with
        | nil => cases h
        | cons next rest => cases h

/-- A value is set inside an object, whose own members stay in number. -/
theorem setAt_obj (hne : path ≠ []) {members : List (Text × Json D)}
    (h : setAt value path (.obj members) = some result) :
    ∃ key child, path.head? = some key
      ∧ result = .obj (Members.put key child members) := by
  cases path with
  | nil => exact absurd rfl hne
  | cons key rest =>
    cases rest with
    | nil =>
      obtain rfl := Option.some.inj h
      exact ⟨key, value, rfl, rfl⟩
    | cons next rest =>
      rw [setAt] at h
      · split at h
        · cases h
        · rw [Option.map_eq_some_iff] at h
          obtain ⟨child, -, rfl⟩ := h
          exact ⟨key, child, rfl, rfl⟩
      · simp

-- =========================== normal values

/-- A key that is plain ASCII and none of the two special ones. -/
def plainKey (key : Text) : Bool :=
  key.all (· < 128) && key ≠ proto && key ≠ objectText

variable (N : Normalizer)

theorem nfc_plainKey {key : Text} (h : plainKey key = true) :
    N.nfc key = key ∧ key ≠ proto ∧ key ≠ objectText := by
  unfold plainKey at h
  simp only [Bool.and_eq_true, List.all_eq_true, decide_eq_true_eq] at h
  exact ⟨N.nfc_ascii key h.1.1, h.1.2, h.2⟩

theorem Normal.setAt {tree : Json D} (hvalue : Normal N value)
    (htree : Normal N tree) (hpath : path.all plainKey = true)
    (h : setAt value path tree = some result) : Normal N result := by
  induction path generalizing tree result with
  | nil => cases h
  | cons key rest ih =>
    rw [List.all_cons, Bool.and_eq_true] at hpath
    obtain ⟨hnfc, hproto, hobject⟩ := nfc_plainKey N hpath.1
    cases tree with
    | obj members =>
      cases rest with
      | nil =>
        obtain rfl := Option.some.inj h
        exact canonicalTree_put N htree hnfc hproto hobject hvalue
      | cons next rest =>
        rw [Moonlight.setAt] at h
        · split at h
          · cases h
          · rename_i child hlookup
            rw [Option.map_eq_some_iff] at h
            obtain ⟨child', hchild, rfl⟩ := h
            exact canonicalTree_put N htree hnfc hproto hobject
              (ih (htree.of_lookup N hproto hlookup) hpath.2 hchild)
        · simp
    | _ =>
      cases rest with
      | nil => cases h
      | cons next rest => cases h

theorem Normal.getAt {tree : Json D} (htree : Normal N tree)
    (hpath : path.all plainKey = true)
    (h : getAt path tree = some value) : Normal N value := by
  induction path generalizing tree with
  | nil =>
    obtain rfl := Option.some.inj h
    exact htree
  | cons key rest ih =>
    rw [List.all_cons, Bool.and_eq_true] at hpath
    cases tree with
    | obj members =>
      rw [Moonlight.getAt] at h
      split at h
      · cases h
      · rename_i child hlookup
        exact ih (htree.of_lookup N (nfc_plainKey N hpath.1).2.1 hlookup)
          hpath.2 h
    | _ => cases h

/-- A text of ASCII is normal. -/
theorem normal_ascii {text : Text} (h : text.all (· < 128) = true) :
    Normal N (.str text : Json D) := by
  rw [List.all_eq_true] at h
  rw [Normal, canonicalTree,
    N.nfc_ascii text fun u hu => of_decide_eq_true (h u hu)]

end Trees

-- ============================= field paths

/-- A plain path with plain keys, the first of them in the payload proper. -/
def plainPath (path : Text) : Bool :=
  plainKey path && (segmentsOf path).all plainKey
    && (segmentsOf path).head?.all isBusinessKey && segmentsOf path ≠ []

/-- Plain paths, each apart from every other one. -/
def separate (paths : List Text) : Bool :=
  paths.all fun p => plainPath p && paths.all fun q =>
    p = q || apart (segmentsOf p) (segmentsOf q)

theorem apart_of_length {p q : List Text} (hlength : p.length = q.length)
    (hne : p ≠ q) : apart p q = true := by
  induction p generalizing q with
  | nil => exact absurd (List.eq_nil_of_length_eq_zero hlength.symm).symm hne
  | cons key p ih =>
    cases q with
    | nil => cases hlength
    | cons other q =>
      rw [apart]
      split
      · next heq =>
          refine ih (Nat.succ.inj hlength) fun hpq => hne ?_
          rw [heq, hpq]
      · rfl

theorem segmentsOf_inj {p q : Text} (h : segmentsOf p = segmentsOf q) :
    p = q := by
  have hp : [46].intercalate (segmentsOf p) = p :=
    List.intercalate_splitOn 46
  have hq : [46].intercalate (segmentsOf q) = q :=
    List.intercalate_splitOn 46
  rw [← hp, ← hq, h]

variable {paths : List Text}

/-- Plain paths that are all as long as each other. -/
theorem separate_of_length (length : Nat) (h : paths.all (fun p =>
      plainPath p && decide ((segmentsOf p).length = length)) = true) :
    separate paths = true := by
  rw [List.all_eq_true] at h
  have hlength : ∀ p ∈ paths, (segmentsOf p).length = length := by
    intro p hp
    have hrow := h p hp
    rw [Bool.and_eq_true, decide_eq_true_eq] at hrow
    exact hrow.2
  rw [separate, List.all_eq_true]
  intro p hp
  have hrow := h p hp
  rw [Bool.and_eq_true] at hrow
  rw [Bool.and_eq_true, List.all_eq_true]
  refine ⟨hrow.1, fun q hq => ?_⟩
  by_cases heq : p = q
  · rw [decide_eq_true heq, Bool.true_or]
  · rw [apart_of_length ((hlength p hp).trans (hlength q hq).symm)
      fun hsame => heq (segmentsOf_inj hsame), Bool.or_true]

theorem separate_settings :
    separate (SETTINGS_FIELD_PATHS.map codes) = true :=
  separate_of_length 2 (by decide +kernel)

theorem separate_host : separate (HOST_FIELD_PATHS.map codes) = true :=
  separate_of_length 1 (by decide +kernel)

theorem separate_profile :
    separate (PROFILE_FIELD_PATHS.map codes) = true := by
  decide +kernel

theorem separate_allowed (recordType : MoonlightRecordType) :
    separate (allowedFieldPaths recordType) = true := by
  cases recordType with
  | settings => exact separate_settings
  | host => exact separate_host
  | profile => exact separate_profile
  | trust => rfl
  | secret => rfl
  | other name => rfl

theorem plainPath_of_mem (h : separate paths = true) {p : Text}
    (hp : p ∈ paths) : plainPath p = true := by
  have hrow := List.all_eq_true.mp h p hp
  rw [Bool.and_eq_true] at hrow
  exact hrow.1

theorem apart_of_mem (h : separate paths = true) {p q : Text} (hp : p ∈ paths)
    (hq : q ∈ paths) (hne : p ≠ q) :
    apart (segmentsOf p) (segmentsOf q) = true := by
  have hrow := List.all_eq_true.mp h p hp
  rw [Bool.and_eq_true] at hrow
  have hpair := List.all_eq_true.mp hrow.2 q hq
  rw [Bool.or_eq_true, decide_eq_true_eq] at hpair
  exact hpair.resolve_left hne

end RemoteDesk.Moonlight
