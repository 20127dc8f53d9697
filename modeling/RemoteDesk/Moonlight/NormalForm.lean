/-
What canonical payloads read as.

The canonical text of a value is the plain text of a tree (`canonicalTree`,
`canonicalizeValue_eq`), and that tree is well formed, so the text reads
back as the tree. A payload that is its own canonical text is therefore the
text of a tree in normal form, and normal forms are kept when a member is
put under a key of its own (`canonicalTree_put`).
-/
import RemoteDesk.Moonlight.CanonicalJson

namespace RemoteDesk.Moonlight

open Lib

-- =============================== sequences

section Sequence

variable {α β : Type}

variable {l : List (Text × Option α)} {ms : List (Text × α)}

theorem sequence_eq_some :
    sequence l = some ms ↔ l = ms.map fun p => (p.1, some p.2) := by
  induction l generalizing ms with
  | nil =>
    rw [sequence, Option.some.injEq]
    constructor
    · rintro rfl
      rfl
    · intro h
      exact (List.map_eq_nil_iff.mp h.symm).symm
  | cons p l ih =>
    obtain ⟨k, o⟩ := p
    cases o with
    | none =>
      rw [sequence]
      constructor
      · intro h
        cases h
      · intro h
        cases ms with
        | nil => cases h
        | cons q ms =>
          have hhead := (List.cons.inj h).1
          cases (Prod.mk.inj hhead).2
    | some a =>
      rw [sequence, Option.map_eq_some_iff]
      constructor
      · rintro ⟨rest, hrest, rfl⟩
        rw [ih.mp hrest]
        rfl
      · intro h
        cases ms with
        | nil => cases h
        | cons q ms =>
          obtain ⟨hhead, htail⟩ := List.cons.inj h
          obtain ⟨rfl, hvalue⟩ := Prod.mk.inj hhead
          obtain rfl := Option.some.inj hvalue
          exact ⟨ms, ih.mpr htail, rfl⟩

theorem sequence_map (f : α → β) (l : List (Text × Option α)) :
    sequence (l.map fun p => (p.1, p.2.map f))
      = (sequence l).map (List.map fun p => (p.1, f p.2)) := by
  induction l with
  | nil => rfl
  | cons p l ih =>
    obtain ⟨k, o⟩ := p
    cases o with
    | none => rfl
    | some a =>
      rw [List.map_cons]
      show (sequence (l.map fun p => (p.1, p.2.map f))).map _ = _
      rw [ih, sequence]
      cases sequence l <;> rfl

theorem lookup_map (f : α → β) (k : Text) (l : List (Text × α)) :
    Members.lookup k (l.map fun p => (p.1, f p.2))
      = (Members.lookup k l).map f := by
  induction l with
  | nil => rfl
  | cons p l ih =>
    rw [List.map_cons, Members.lookup, Members.lookup, ih]
    split <;> rfl

variable (N : Normalizer)

/-- Results are mapped before or after they are put together. -/
theorem assemble_map (f : α → β) (l : List (Text × Option α)) :
    assemble N (l.map fun p => (p.1, p.2.map f))
      = (assemble N l).map (List.map fun p => (p.1, f p.2)) := by
  have hkeys : (l.map fun p => (p.1, p.2.map f)).map (fun p => N.nfc p.1)
      = l.map fun p => N.nfc p.1 := by
    rw [List.map_map]
    rfl
  have hfind : ∀ key, ((l.map fun p => (p.1, p.2.map f)).find?
      fun p => N.nfc p.1 = key).map Prod.fst
      = (l.find? fun p => N.nfc p.1 = key).map Prod.fst := by
    intro key
    rw [List.find?_map, Option.map_map]
    rfl
  unfold assemble
  dsimp only
  rw [hkeys]
  split
  · rfl
  · rw [← sequence_map, List.map_map]
    congr 1
    refine List.map_congr_left fun key _ => ?_
    rw [Function.comp_apply]
    dsimp only
    rw [hfind, lookup_map (fun o : Option α => o.map f)]
    congr 1
    cases Members.lookup _ l with
    | none => rfl
    | some o => rfl

/-- The keys of what is put together. -/
theorem ordered_of_assemble (h : assemble N l = some ms) :
    Members.Ordered ms ∧ ∀ p ∈ ms, (∃ k, Members.lookup k l = some (some p.2))
      ∧ ∃ k, p.1 = N.nfc k := by
  unfold assemble at h
  dsimp only at h
  split at h
  · cases h
  rename_i hnodup
  rw [not_not] at hnodup
  have hlist := sequence_eq_some.mp h
  have hkeys : (l.map fun p => N.nfc p.1).insertionSort (· ≤ ·)
      = Members.keys ms := by
    have hfst := congrArg (List.map Prod.fst) hlist
    rw [List.map_map, List.map_map] at hfst
    simpa [Function.comp_def, Members.keys] using hfst
  have hperm := List.perm_insertionSort (· ≤ ·) (l.map fun p => N.nfc p.1)
  refine ⟨?_, fun p hp => ⟨?_, ?_⟩⟩
  · have hsorted := List.pairwise_insertionSort (· ≤ ·)
      (l.map fun p => N.nfc p.1)
    have hnodup' := hperm.nodup_iff.mpr hnodup
    rw [hkeys] at hsorted hnodup'
    have hboth := hsorted.and hnodup'
    exact hboth.imp fun ⟨hle, hne⟩ =>
      lt_of_le_of_ne hle hne
  · have hmem : (p.1, some p.2) ∈ ms.map fun p => (p.1, some p.2) :=
      List.mem_map_of_mem hp
    rw [← hlist] at hmem
    obtain ⟨key, -, heq⟩ := List.mem_map.mp hmem
    obtain ⟨-, hvalue⟩ := Prod.mk.inj heq
    exact ⟨_, Option.join_eq_some_iff.mp hvalue⟩
  · have hmem : p.1 ∈ Members.keys ms := List.mem_map_of_mem hp
    rw [← hkeys, hperm.mem_iff] at hmem
    obtain ⟨q, -, heq⟩ := List.mem_map.mp hmem
    exact ⟨q.1, heq.symm⟩

/-- Members in order under normalised keys stay where they are. -/
theorem assemble_fixed (hord : Members.Ordered l)
    (hfixed : ∀ k ∈ Members.keys l, N.nfc k = k) :
    assemble N l = some ms
      ↔ (l.map fun p => (p.1, if p.1 = proto
          then (Members.lookup objectText l).join else p.2))
        = ms.map fun p => (p.1, some p.2) := by
  have hkeys : (l.map fun p => N.nfc p.1) = Members.keys l :=
    List.map_congr_left fun p hp => hfixed p.1 (List.mem_map_of_mem hp)
  have hnodup : (Members.keys l).Nodup := hord.imp fun h => h.ne
  have hsort : (Members.keys l).insertionSort (· ≤ ·) = Members.keys l :=
    (hord.imp fun h => h.le).insertionSort_eq
  unfold assemble
  dsimp only
  rw [hkeys, if_neg (not_not.mpr hnodup), hsort, sequence_eq_some,
    Members.keys, List.map_map]
  have hrow : ∀ p ∈ l, ((fun key => (key, (Members.lookup
      (if key = proto then objectText
        else ((l.find? fun p => N.nfc p.1 = key).map Prod.fst).getD [])
      l).join)) ∘ Prod.fst) p
      = (p.1, if p.1 = proto then (Members.lookup objectText l).join
        else p.2) := by
    intro p hp
    rw [Function.comp_apply]
    by_cases hproto : p.1 = proto
    · rw [if_pos hproto, if_pos hproto]
    · rw [if_neg hproto, if_neg hproto]
      have hfound : (l.find? fun q => N.nfc q.1 = p.1).map Prod.fst
          = some p.1 := by
        cases hfind : l.find? fun q => N.nfc q.1 = p.1 with
        | none =>
          have hnone := List.find?_eq_none.mp hfind p hp
          exact absurd (decide_eq_true (hfixed p.1
            (List.mem_map_of_mem hp))) hnone
        | some q =>
          have hq := List.mem_of_find?_eq_some hfind
          have hname : N.nfc q.1 = p.1 := by
            have hfits := List.find?_some hfind
            simpa using hfits
          have heq : q.1 = p.1 :=
            (hfixed q.1 (List.mem_map_of_mem hq)).symm.trans hname
          rw [Option.map_some, heq]
      rw [hfound, Option.getD_some, Members.lookup_of_mem hord hp]
      rfl
  rw [List.map_congr_left hrow]

end Sequence

-- ====================== the canonical tree

section Tree

variable (N : Normalizer) {D : Type}

mutual

/-- The value whose plain text is canonical. -/
def canonicalTree : Json D → Option (Json D)
  | .null => some .null
  | .bool b => some (.bool b)
  | .num d => some (.num d)
  | .str s => some (.str (N.nfc s))
  | .arr items => (treeItems items).map .arr
  | .obj members => (assemble N (treeMembers members)).map .obj
termination_by structural value => value

def treeItems : List (Json D) → Option (List (Json D))
  | [] => some []
  | v :: rest =>
    match canonicalTree v with
    | none => none
    | some item => (treeItems rest).map (item :: ·)
termination_by structural items => items

def treeMembers : List (Text × Json D) → List (Text × Option (Json D))
  | [] => []
  | (k, v) :: rest => (k, canonicalTree v) :: treeMembers rest
termination_by structural members => members

end

theorem treeMembers_eq (members : List (Text × Json D)) :
    treeMembers N members
      = members.map fun p => (p.1, canonicalTree N p.2) := by
  induction members with
  | nil => rfl
  | cons p members ih => rw [treeMembers, ih, List.map_cons]

variable [JsNumber D]

theorem moreItems_eq (items : List (Json D)) :
    moreItems items = items.flatMap fun v => 44 :: v.text := by
  induction items with
  | nil => rfl
  | cons v items ih => rw [moreItems, ih, List.flatMap_cons]

theorem moreMembers_eq (members : List (Text × Json D)) :
    moreMembers members
      = members.flatMap fun p => 44 :: quote p.1 ++ 58 :: p.2.text := by
  induction members with
  | nil => rfl
  | cons p members ih => rw [moreMembers, ih, List.flatMap_cons]

/-- Pieces with a comma between them. -/
theorem intercalate_cons (x : Text) (xs : List Text) :
    [44].intercalate (x :: xs) = x ++ xs.flatMap fun y => 44 :: y := by
  induction xs generalizing x with
  | nil => simp [List.intercalate]
  | cons y xs ih =>
    have hcons : [44].intercalate (x :: y :: xs)
        = x ++ [44] ++ [44].intercalate (y :: xs) := by
      simp [List.intercalate, List.intersperse]
    rw [hcons, ih, List.flatMap_cons]
    simp

theorem itemsText_eq (items : List (Json D)) :
    itemsText items = [44].intercalate (items.map Json.text) := by
  cases items with
  | nil => rfl
  | cons v items =>
    rw [itemsText, moreItems_eq, List.map_cons, intercalate_cons,
      List.flatMap_map]

theorem membersText_eq (members : List (Text × Json D)) :
    membersText members = [44].intercalate
      (members.map fun p => quote p.1 ++ 58 :: p.2.text) := by
  cases members with
  | nil => rfl
  | cons p members =>
    rw [membersText, moreMembers_eq, List.map_cons, intercalate_cons,
      List.flatMap_map]
    simp

mutual

theorem canonicalizeValue_eq : ∀ v : Json D,
    canonicalizeValue N v = (canonicalTree N v).map Json.text
  | .null => rfl
  | .bool b => rfl
  | .num d => rfl
  | .str s => rfl
  | .arr items => by
      rw [canonicalizeValue, canonicalizeItems_eq items, canonicalTree,
        Option.map_map, Option.map_map]
      congr 1
      funext items
      rw [Function.comp_apply, Function.comp_apply, Json.text, itemsText_eq]
  | .obj members => by
      rw [canonicalizeValue, canonicalizeMembers_eq members, canonicalTree,
        assemble_map, Option.map_map, Option.map_map]
      congr 1
      funext members
      rw [Function.comp_apply, Function.comp_apply, Json.text,
        membersText_eq, List.map_map]
      rfl
termination_by structural v => v

theorem canonicalizeItems_eq : ∀ items : List (Json D),
    canonicalizeItems N items = (treeItems N items).map (List.map Json.text)
  | [] => rfl
  | v :: rest => by
      rw [canonicalizeItems, treeItems, canonicalizeValue_eq v]
      cases canonicalTree N v with
      | none => rfl
      | some w =>
        rw [Option.map_some]
        dsimp only
        rw [canonicalizeItems_eq rest, Option.map_map, Option.map_map]
        rfl
termination_by structural items => items

theorem canonicalizeMembers_eq : ∀ members : List (Text × Json D),
    canonicalizeMembers N members
      = (treeMembers N members).map fun p => (p.1, p.2.map Json.text)
  | [] => rfl
  | (k, v) :: rest => by
      rw [canonicalizeMembers, treeMembers, canonicalizeValue_eq v,
        canonicalizeMembers_eq rest]
      rfl
termination_by structural members => members

end

end Tree

-- ============================= well formed

section WellFormed

variable (N : Normalizer) {D : Type}

theorem wfMembers_iff {members : List (Text × Json D)} :
    WfMembers members ↔ ∀ p ∈ members, p.2.Wf := by
  induction members with
  | nil => simp [WfMembers]
  | cons p members ih =>
    rw [WfMembers, ih, List.forall_mem_cons]

mutual

theorem canonicalTree_wf : ∀ v w : Json D,
    canonicalTree N v = some w → w.Wf
  | .null, w, h => by
      obtain rfl := Option.some.inj h
      trivial
  | .bool b, w, h => by
      obtain rfl := Option.some.inj h
      trivial
  | .num d, w, h => by
      obtain rfl := Option.some.inj h
      trivial
  | .str s, w, h => by
      obtain rfl := Option.some.inj h
      trivial
  | .arr items, w, h => by
      rw [canonicalTree, Option.map_eq_some_iff] at h
      obtain ⟨results, hresults, rfl⟩ := h
      exact treeItems_wf items results hresults
  | .obj members, w, h => by
      rw [canonicalTree, Option.map_eq_some_iff] at h
      obtain ⟨results, hresults, rfl⟩ := h
      obtain ⟨hord, hmem⟩ := ordered_of_assemble N hresults
      refine ⟨hord, wfMembers_iff.mpr fun p hp => ?_⟩
      obtain ⟨⟨k, hk⟩, -⟩ := hmem p hp
      exact treeMembers_wf members k p.2 hk
termination_by structural v => v

theorem treeItems_wf : ∀ items results : List (Json D),
    treeItems N items = some results → WfItems results
  | [], results, h => by
      obtain rfl := Option.some.inj h
      trivial
  | v :: rest, results, h => by
      rw [treeItems] at h
      cases hv : canonicalTree N v with
      | none =>
        rw [hv] at h
        cases h
      | some w =>
        rw [hv] at h
        dsimp only at h
        rw [Option.map_eq_some_iff] at h
        obtain ⟨others, hothers, rfl⟩ := h
        exact ⟨canonicalTree_wf v w hv, treeItems_wf rest others hothers⟩
termination_by structural items => items

theorem treeMembers_wf : ∀ (members : List (Text × Json D)) (k : Text)
    (w : Json D),
    Members.lookup k (treeMembers N members) = some (some w) → w.Wf
  | [], k, w, h => by cases h
  | (j, v) :: rest, k, w, h => by
      rw [treeMembers, Members.lookup] at h
      split at h
      · exact canonicalTree_wf v w (Option.some.inj h)
      · exact treeMembers_wf rest k w h
termination_by structural members => members

end

-- ============================ normal forms

/-- A value that is its own canonical tree. -/
def Normal (v : Json D) : Prop := canonicalTree N v = some v

theorem Normal.wf {v : Json D} (h : Normal N v) : v.Wf :=
  canonicalTree_wf N v v h

variable {m : List (Text × Json D)}

/-- What the members of a normal object are like: the member `__proto__`
repeats the one named as an object is. -/
theorem normal_obj :
    Normal N (.obj m) ↔ Members.Ordered m
      ∧ (∀ k ∈ Members.keys m, N.nfc k = k)
      ∧ ∀ p ∈ m, (if p.1 = proto then
          ((Members.lookup objectText m).bind fun v => canonicalTree N v)
          else canonicalTree N p.2) = some p.2 := by
  have hlookup : ∀ k, (Members.lookup k (treeMembers N m)).join
      = (Members.lookup k m).bind fun v => canonicalTree N v := by
    intro k
    rw [treeMembers_eq, lookup_map]
    cases Members.lookup k m with
    | none => rfl
    | some v => rfl
  have hkeys : Members.keys (treeMembers N m) = Members.keys m := by
    rw [treeMembers_eq, Members.keys, List.map_map]
    rfl
  have hlist : ((treeMembers N m).map fun p => (p.1, if p.1 = proto
        then (Members.lookup objectText (treeMembers N m)).join else p.2))
        = m.map (fun p => (p.1, some p.2))
      ↔ ∀ p ∈ m, (if p.1 = proto then
          ((Members.lookup objectText m).bind fun v => canonicalTree N v)
          else canonicalTree N p.2) = some p.2 := by
    rw [hlookup, treeMembers_eq, List.map_map]
    constructor
    · intro h p hp
      have hrow := List.map_inj_left.mp h p hp
      exact (Prod.mk.inj hrow).2
    · intro h
      refine List.map_congr_left fun p hp => ?_
      exact Prod.ext rfl (h p hp)
  constructor
  · intro h
    rw [Normal, canonicalTree, Option.map_eq_some_iff] at h
    obtain ⟨results, hresults, hm⟩ := h
    obtain rfl := Json.obj.inj hm
    obtain ⟨hord, hmem⟩ := ordered_of_assemble N hresults
    have hfixed : ∀ k ∈ Members.keys results, N.nfc k = k := by
      intro k hk
      obtain ⟨p, hp, rfl⟩ := List.mem_map.mp hk
      obtain ⟨-, j, hj⟩ := hmem p hp
      rw [hj, N.nfc_nfc]
    have hord' : Members.Ordered (treeMembers N results) := by
      rw [Members.Ordered, hkeys]
      exact hord
    rw [assemble_fixed N hord' (hkeys ▸ hfixed)] at hresults
    exact ⟨hord, hfixed, hlist.mp hresults⟩
  · intro ⟨hord, hfixed, hmem⟩
    have hord' : Members.Ordered (treeMembers N m) := by
      rw [Members.Ordered, hkeys]
      exact hord
    rw [Normal, canonicalTree, Option.map_eq_some_iff]
    exact ⟨m, (assemble_fixed N hord' (hkeys ▸ hfixed)).mpr
      (hlist.mpr hmem), rfl⟩

/-- A member is put under a key of its own. -/
theorem canonicalTree_put (hm : Normal N (.obj m)) {k : Text} (hk : N.nfc k = k)
    (hproto : k ≠ proto) (hobject : k ≠ objectText) {v w : Json D}
    (hv : canonicalTree N v = some w) :
    canonicalTree N (.obj (Members.put k v m))
      = some (.obj (Members.put k w m)) := by
  obtain ⟨hord, hfixed, hmem⟩ := (normal_obj N).mp hm
  have htree : treeMembers N (Members.put k v m)
      = Members.put k (some w) (treeMembers N m) := by
    rw [treeMembers_eq, treeMembers_eq, ← hv]
    exact Members.map_put fun _ u => canonicalTree N u
  have hkeys : Members.keys (treeMembers N m) = Members.keys m := by
    rw [treeMembers_eq, Members.keys, List.map_map]
    rfl
  have hord' : Members.Ordered (treeMembers N (Members.put k v m)) := by
    rw [htree]
    refine Members.ordered_put ?_
    rw [Members.Ordered, hkeys]
    exact hord
  have hfixed' : ∀ j ∈ Members.keys (treeMembers N (Members.put k v m)),
      N.nfc j = j := by
    intro j hj
    rw [htree, Members.mem_keys_put, hkeys] at hj
    rcases hj with rfl | hj
    · exact hk
    · exact hfixed j hj
  rw [canonicalTree, Option.map_eq_some_iff]
  refine ⟨Members.put k w m, ?_, rfl⟩
  rw [assemble_fixed N hord' hfixed', htree, Members.lookup_put_ne hobject]
  have hlookup : (Members.lookup objectText (treeMembers N m)).join
      = (Members.lookup objectText m).bind fun v => canonicalTree N v := by
    rw [treeMembers_eq, lookup_map]
    cases Members.lookup objectText m with
    | none => rfl
    | some u => rfl
  have hput := Members.map_put (k := k) (a := some w)
    (m := treeMembers N m) fun j o => if j = proto
      then (Members.lookup objectText (treeMembers N m)).join else o
  rw [if_neg hproto] at hput
  have hrows : ((treeMembers N m).map fun p => (p.1, if p.1 = proto
      then (Members.lookup objectText (treeMembers N m)).join else p.2))
      = m.map fun p => (p.1, some p.2) := by
    rw [hlookup, treeMembers_eq, List.map_map]
    refine List.map_congr_left fun p hp => ?_
    exact Prod.ext rfl (hmem p hp)
  rw [hput, hrows]
  exact (Members.map_put fun _ u => some u).symm

/-- Members are left out, but not the one named as an object is. -/
theorem Normal.filter (hm : Normal N (.obj m)) {keep : Text → Bool}
    (hkeep : keep objectText = true) :
    Normal N (.obj (m.filter fun p => keep p.1)) := by
  obtain ⟨hord, hfixed, hmem⟩ := (normal_obj N).mp hm
  have hsub := List.filter_sublist (p := fun p => keep p.1) (l := m)
  refine (normal_obj N).mpr ⟨hord.sublist (hsub.map Prod.fst), ?_, ?_⟩
  · intro k hk
    exact hfixed k ((hsub.map Prod.fst).subset hk)
  · intro p hp
    have hlookup : Members.lookup objectText (m.filter fun p => keep p.1) =
        Members.lookup objectText m := Members.lookup_filter hkeep
    rw [hlookup]
    exact hmem p (List.mem_of_mem_filter hp)

/-- A member of a normal object is normal, `__proto__` apart. -/
theorem Normal.of_lookup (hm : Normal N (.obj m)) {k : Text} (hk : k ≠ proto)
    {v : Json D} (hv : Members.lookup k m = some v) : Normal N v := by
  obtain ⟨-, -, hmem⟩ := (normal_obj N).mp hm
  have hrow := hmem (k, v) (Members.mem_of_lookup hv)
  rw [if_neg hk] at hrow
  exact hrow

end WellFormed

-- ================================ payloads

section Payloads

variable (N : Normalizer) {D : Type} [JsNumber D]

/-- A text that is its own canonical text is that of a normal form. -/
theorem normal_of_canonical {source : Text}
    (h : moonlightCanonicalizeJson N D source = .ok source) :
    ∃ v : Json D, parse source = some v ∧ v.text = source ∧ Normal N v := by
  unfold moonlightCanonicalizeJson at h
  split at h
  · cases h
  split at h
  · cases h
  split at h
  · cases h
  rename_i parsed hparse
  split at h
  · cases h
  rename_i canonical hcanonical
  obtain rfl := Except.ok.inj h
  rw [canonicalizeValue_eq, Option.map_eq_some_iff] at hcanonical
  obtain ⟨w, hw, htext⟩ := hcanonical
  have hread := parse_text (canonicalTree_wf N parsed w hw)
  rw [htext, hparse] at hread
  obtain rfl := Option.some.inj hread
  exact ⟨parsed, hparse, htext, hw⟩

/-- The canonical text of a written value. -/
theorem canonicalizeJson_text {v : Json D} (hv : v.Wf) {canonical : Text}
    (h : moonlightCanonicalizeJson N D v.text = .ok canonical) :
    ∃ w : Json D, canonicalTree N v = some w
      ∧ parse canonical = some w := by
  unfold moonlightCanonicalizeJson at h
  split at h
  · cases h
  split at h
  · cases h
  rw [parse_text hv] at h
  dsimp only at h
  split at h
  · cases h
  rename_i result hcanonical
  obtain rfl := Except.ok.inj h
  rw [canonicalizeValue_eq, Option.map_eq_some_iff] at hcanonical
  obtain ⟨w, hw, rfl⟩ := hcanonical
  exact ⟨w, hw, parse_text (canonicalTree_wf N v w hw)⟩

end Payloads

end RemoteDesk.Moonlight
