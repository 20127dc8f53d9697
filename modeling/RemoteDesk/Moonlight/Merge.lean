/-
The field-wise merge of two Moonlight rows.

`mergePaths` gives every path the value and the version of the side that
is chosen for it (`mergePaths_takes`); which side that is does not depend
on the order of the two (`mergePaths_swap`). What is merged is written as
a canonical payload, and reads back as it was put together
(`payloadWithMeta_reads`).
-/
import RemoteDesk.Moonlight.FieldPaths

namespace RemoteDesk.Moonlight

open Lib

section Merge

variable {D : Type} [JsNumber D]

-- =================================== sides

def Side.value (side : Side D) (path : Text) : Option (Json D) :=
  compatibilityValueAtPath side.payload path side.record.recordType

def Side.version (side : Side D) (path : Text) : Int :=
  fieldVersion side.fieldMeta path

/-- The side a path is taken from: the one with the greater version, or
else the newer envelope. -/
def chosen (current candidate : Side D) (order : Int) (path : Text) :
    Side D :=
  if candidate.version path > current.version path
      ∨ (candidate.version path = current.version path ∧ order > 0)
    then candidate else current

variable {order : Int} {recordType : MoonlightRecordType}
variable {md : MoonlightRecordMeta}

omit [JsNumber D] in
theorem chosen_swap (current candidate : Side D) (horder : order ≠ 0)
    (path : Text) :
    chosen candidate current (-order) path
      = chosen current candidate order path := by
  have hcond : (current.version path > candidate.version path
        ∨ (current.version path = candidate.version path ∧ -order > 0))
      ↔ ¬ (candidate.version path > current.version path
        ∨ (candidate.version path = current.version path ∧ order > 0)) := by
    omega
  unfold chosen
  by_cases h : candidate.version path > current.version path
      ∨ (candidate.version path = current.version path ∧ order > 0)
  · rw [if_pos h, if_neg fun hother => hcond.mp hother h]
  · rw [if_neg h, if_pos (hcond.mpr h)]

/-- One round of the loop, on the chosen side. -/
theorem mergePaths_cons (current candidate : Side D) (order : Int)
    (merged : Merged D) (path : Text) (rest : List Text)
    {result : Merged D} :
    mergePaths current candidate order merged (path :: rest) = some result
      ↔ ∃ currentValue candidateValue payload,
        current.value path = some currentValue
        ∧ candidate.value path = some candidateValue
        ∧ ((chosen current candidate order path).value path).bind
          (setValueAtPath merged.payload path) = some payload
        ∧ mergePaths current candidate order {
            payload
            versions := Members.put path
              (max (current.version path) (candidate.version path))
              merged.versions
            conflicts := if currentValue.text ≠ candidateValue.text
                ∧ current.version path > current.fieldMeta.baseSyncVersion
                ∧ candidate.version path
                  > candidate.fieldMeta.baseSyncVersion
              then merged.conflicts ++ [path] else merged.conflicts } rest
          = some result := by
  have hleft : compatibilityValueAtPath current.payload path
      current.record.recordType = current.value path := rfl
  have hright : compatibilityValueAtPath candidate.payload path
      candidate.record.recordType = candidate.value path := rfl
  rw [mergePaths]
  dsimp only
  rw [hleft, hright]
  cases hcurrent : current.value path with
  | none => simp
  | some currentValue =>
    cases hcandidate : candidate.value path with
    | none => simp
    | some candidateValue =>
      have hchosen : (chosen current candidate order path).value path
          = some (if candidate.version path > current.version path
            ∨ (candidate.version path = current.version path
              ∧ order > 0)
            then candidateValue else currentValue) := by
        unfold chosen
        split
        · exact hcandidate
        · exact hcurrent
      rw [hchosen, Option.bind_some]
      dsimp only
      constructor
      · intro h
        split at h
        · cases h
        · rename_i payload hpayload
          exact ⟨_, _, payload, rfl, rfl, hpayload, h⟩
      · rintro ⟨_, _, payload, hl, hr, hpayload, h⟩
        obtain rfl := Option.some.inj hl
        obtain rfl := Option.some.inj hr
        have hset : setValueAtPath merged.payload path
            (if fieldVersion candidate.fieldMeta path
                > fieldVersion current.fieldMeta path
              ∨ (fieldVersion candidate.fieldMeta path
                = fieldVersion current.fieldMeta path ∧ order > 0)
            then candidateValue else currentValue) = some payload :=
          hpayload
        rw [hset]
        exact h

/-- The loop does not depend on which row is called current. -/
theorem mergePaths_swap (current candidate : Side D) (horder : order ≠ 0)
    (paths : List Text) (merged : Merged D) :
    mergePaths candidate current (-order) merged paths
      = mergePaths current candidate order merged paths := by
  induction paths generalizing merged with
  | nil => rfl
  | cons path rest ih =>
    refine Option.ext fun result => ?_
    rw [mergePaths_cons, mergePaths_cons,
      chosen_swap current candidate horder]
    have hconflict : ∀ v w : Json D,
        (v.text ≠ w.text
          ∧ candidate.version path > candidate.fieldMeta.baseSyncVersion
          ∧ current.version path > current.fieldMeta.baseSyncVersion)
        = (w.text ≠ v.text
          ∧ current.version path > current.fieldMeta.baseSyncVersion
          ∧ candidate.version path
            > candidate.fieldMeta.baseSyncVersion) := by
      intro v w
      exact propext ⟨fun h => ⟨h.1.symm, h.2.2, h.2.1⟩,
        fun h => ⟨h.1.symm, h.2.2, h.2.1⟩⟩
    constructor
    · rintro ⟨v, w, payload, hv, hw, hset, hrest⟩
      refine ⟨w, v, payload, hw, hv, hset, ?_⟩
      rw [ih] at hrest
      simp only [hconflict v w, max_comm (candidate.version path)] at hrest
      exact hrest
    · rintro ⟨v, w, payload, hv, hw, hset, hrest⟩
      refine ⟨w, v, payload, hw, hv, hset, ?_⟩
      rw [ih]
      simp only [hconflict w v, max_comm (candidate.version path)]
      exact hrest

-- ================================ versions

theorem mergePaths_versions {current candidate : Side D} {paths : List Text}
    {merged result : Merged D}
    (h : mergePaths current candidate order merged paths = some result) :
    (Members.Ordered merged.versions → Members.Ordered result.versions)
      ∧ ∀ p, Members.lookup p result.versions = if p ∈ paths
        then some (max (current.version p) (candidate.version p))
        else Members.lookup p merged.versions := by
  induction paths generalizing merged with
  | nil =>
    obtain rfl := Option.some.inj h
    exact ⟨id, fun p => rfl⟩
  | cons path rest ih =>
    rw [mergePaths_cons] at h
    obtain ⟨v, w, payload, -, -, -, hrest⟩ := h
    obtain ⟨hord, hlookup⟩ := ih hrest
    refine ⟨fun hm => hord (Members.ordered_put hm), fun p => ?_⟩
    rw [hlookup p, Members.lookup_put]
    by_cases hp : p ∈ rest
    · rw [if_pos hp, if_pos (List.mem_cons_of_mem _ hp)]
    · rw [if_neg hp]
      by_cases heq : path = p
      · rw [if_pos heq, if_pos (List.mem_cons.mpr (.inl heq.symm)), heq]
      · rw [if_neg heq, if_neg fun hmem =>
          (List.mem_cons.mp hmem).elim (fun h => heq h.symm) hp]

-- ================================== values

variable (N : Normalizer)

omit [JsNumber D] in
theorem normal_compatibility {source : List (Text × Json D)}
    (hsource : Normal N (.obj source)) {path : Text}
    (hpath : plainPath path = true) {value : Json D}
    (h : compatibilityValueAtPath source path recordType = some value) :
    Normal N value := by
  unfold plainPath at hpath
  simp only [Bool.and_eq_true] at hpath
  unfold compatibilityValueAtPath at h
  split at h
  · rename_i direct hdirect
    obtain rfl := Option.some.inj h
    exact hsource.getAt N hpath.1.1.2 hdirect
  split at h
  · cases h
  split at h
  · split at h
    · split at h
      · obtain rfl := Option.some.inj h
        exact normal_ascii N (by decide)
      · obtain rfl := Option.some.inj h
        exact normal_ascii N (by decide)
    · obtain rfl := Option.some.inj h
      exact normal_ascii N (by decide)
  split at h
  · split at h
    · split at h
      · obtain rfl := Option.some.inj h
        exact normal_ascii N (by decide)
      · obtain rfl := Option.some.inj h
        exact normal_ascii N (by decide)
    · obtain rfl := Option.some.inj h
      exact normal_ascii N (by decide)
  · cases h

/-- The members of a payload that are no metadata. -/
def Business (members : List (Text × Json D)) : Prop :=
  ∀ k ∈ Members.keys members, isBusinessKey k = true

omit [JsNumber D] in
theorem Business.eq {members : List (Text × Json D)} (h : Business members) :
    businessPayload members = members :=
  List.filter_eq_self.mpr fun p hp => h p.1 (List.mem_map_of_mem hp)

omit [JsNumber D] in
theorem setValueAtPath_spec {target result : List (Text × Json D)}
    {path : Text} {value : Json D} (hpath : plainPath path = true)
    (h : setValueAtPath target path value = some result) :
    setAt value (segmentsOf path) (.obj target) = some (.obj result)
      ∧ (Business target → Business result) := by
  unfold plainPath at hpath
  simp only [Bool.and_eq_true, decide_eq_true_eq] at hpath
  obtain ⟨⟨-, hhead⟩, hne⟩ := hpath
  unfold setValueAtPath at h
  split at h
  · rename_i members hset
    obtain rfl := Option.some.inj h
    refine ⟨hset, fun htarget k hk => ?_⟩
    obtain ⟨key, child, hkey, hmembers⟩ := setAt_obj hne hset
    obtain rfl := Json.obj.inj hmembers
    rcases Members.mem_keys_put.mp hk with rfl | hk
    · rw [hkey] at hhead
      exact hhead
    · exact htarget k hk
  · cases h

/-- What a path has after a merge. -/
structure Takes (current candidate : Side D) (order : Int)
    (payload : List (Text × Json D)) (path : Text) : Prop where
  present : (valueAtPath payload path).isSome
  value : valueAtPath payload path
    = (chosen current candidate order path).value path

theorem mergePaths_takes {all : List Text} (hall : separate all = true)
    {current candidate : Side D} {paths : List Text}
    (hsub : ∀ p ∈ paths, p ∈ all) (hnodup : paths.Nodup)
    {merged result : Merged D}
    (h : mergePaths current candidate order merged paths = some result) :
    (∀ p ∈ paths, Takes current candidate order result.payload p)
      ∧ (∀ p ∈ all, p ∉ paths →
        valueAtPath result.payload p = valueAtPath merged.payload p)
      ∧ (Business merged.payload → Business result.payload)
      ∧ (Normal N (.obj current.payload) → Normal N (.obj candidate.payload) →
        Normal N (.obj merged.payload) → Normal N (.obj result.payload)) := by
  induction paths generalizing merged with
  | nil =>
    obtain rfl := Option.some.inj h
    exact ⟨fun p hp => (List.not_mem_nil hp).elim, fun p _ _ => rfl, id,
      fun _ _ => id⟩
  | cons path rest ih =>
    rw [List.nodup_cons] at hnodup
    rw [mergePaths_cons] at h
    obtain ⟨v, w, payload, -, -, hset, hrest⟩ := h
    rw [Option.bind_eq_some_iff] at hset
    obtain ⟨value, hvalue, hset⟩ := hset
    have hmem : path ∈ all := hsub path List.mem_cons_self
    have hplain := plainPath_of_mem hall hmem
    obtain ⟨hsetAt, hbusiness⟩ := setValueAtPath_spec hplain hset
    obtain ⟨htakes, hother, hbusiness', hnormal⟩ := ih
      (fun p hp => hsub p (List.mem_cons_of_mem _ hp)) hnodup.2 hrest
    have hparts := hplain
    unfold plainPath at hparts
    simp only [Bool.and_eq_true, decide_eq_true_eq] at hparts
    have hread : valueAtPath payload path = some value :=
      getAt_setAt hparts.2 hsetAt
    refine ⟨fun p hp => ?_, fun p hp hnot => ?_,
      fun hb => hbusiness' (hbusiness hb), fun hcur hcand hm => ?_⟩
    · rcases List.mem_cons.mp hp with rfl | hp
      · have hkeep := hother p hmem hnodup.1
        refine ⟨?_, ?_⟩
        · rw [hkeep, hread]
          rfl
        · rw [hkeep, hread, hvalue]
      · exact htakes p hp
    · rw [List.mem_cons, not_or] at hnot
      have hapart := apart_of_mem hall hmem hp (Ne.symm hnot.1)
      rw [hother p hp hnot.2]
      exact getAt_setAt_apart hapart hsetAt
    · refine hnormal hcur hcand
        (Normal.setAt N ?_ hm hparts.1.1.2 hsetAt)
      have hside : (chosen current candidate order path) = candidate
          ∨ (chosen current candidate order path) = current := by
        unfold chosen
        split
        · exact .inl rfl
        · exact .inr rfl
      rcases hside with hside | hside
      · rw [hside] at hvalue
        exact normal_compatibility N hcand hplain hvalue
      · rw [hside] at hvalue
        exact normal_compatibility N hcur hplain hvalue

-- ============================ reading back

omit [JsNumber D] in
/-- An object without the two special keys is normal when its members
are. -/
theorem normal_plain {m : List (Text × Json D)} (hord : Members.Ordered m)
    (hkeys : ∀ k ∈ Members.keys m, plainKey k = true)
    (hmem : ∀ p ∈ m, Normal N p.2) : Normal N (.obj m) := by
  refine (normal_obj N).mpr ⟨hord, fun k hk => ?_, fun p hp => ?_⟩
  · exact (nfc_plainKey N (hkeys k hk)).1
  · rw [if_neg (nfc_plainKey N (hkeys p.1 (List.mem_map_of_mem hp))).2.1]
    exact hmem p hp

/-- The versions of metadata that may be written. -/
structure Writable (versions : List (Text × Int)) : Prop where
  ordered : Members.Ordered versions
  plain : ∀ k ∈ Members.keys versions, plainKey k = true
  bounded : ∀ p ∈ versions, p.2.natAbs < 2 ^ 53

/-- The versions of metadata, as they are written. -/
def writtenVersions (D : Type) [JsNumber D] (versions : List (Text × Int)) :
    List (Text × Json D) :=
  versions.map fun p => (p.1, .num (JsNumber.ofInt p.2))

theorem keys_writtenVersions (versions : List (Text × Int)) :
    Members.keys (writtenVersions D versions) = Members.keys versions := by
  rw [writtenVersions, Members.keys, List.map_map]
  rfl

theorem versionsOf_written {versions : List (Text × Int)}
    (h : Writable versions) :
    versionsOf (writtenVersions D versions) = some versions := by
  obtain ⟨-, hplain, hbounded⟩ := h
  induction versions with
  | nil => rfl
  | cons p rest ih =>
    obtain ⟨key, n⟩ := p
    have hkey := hplain key List.mem_cons_self
    have hproto : key ≠ proto := by
      unfold plainKey at hkey
      simp only [Bool.and_eq_true, decide_eq_true_eq] at hkey
      exact hkey.1.2
    have hn := JsNumber.toInt_ofInt (D := D) n
      (hbounded (key, n) List.mem_cons_self)
    show (versionsOf (writtenVersions D rest)).map _ = _
    rw [ih (fun k hk => hplain k (List.mem_cons_of_mem _ hk))
      fun p hp => hbounded p (List.mem_cons_of_mem _ hp), Option.map_some,
      if_neg hproto, hn]
    rfl

/-- The canonical tree of written metadata: only the two names can
change. -/
theorem canonicalTree_encodedMeta (h : Writable md.fieldVersions) :
    canonicalTree N (encodedMeta md : Json D)
      = some (encodedMeta { md with
        mutationId := N.nfc md.mutationId
        originId := N.nfc md.originId }) := by
  have hversions : Normal N (.obj (writtenVersions D md.fieldVersions)) := by
    refine normal_plain N ?_ ?_ fun p hp => ?_
    · rw [Members.Ordered, keys_writtenVersions]
      exact h.ordered
    · rw [keys_writtenVersions]
      exact h.plain
    · obtain ⟨q, -, rfl⟩ := List.mem_map.mp hp
      rfl
  have hkeys : ∀ k ∈ [codes "baseSyncVersion", codes "fieldVersions",
      codes "mutationId", codes "originId"], plainKey k = true := by
    decide
  have hord : Members.Ordered (treeMembers N [(codes "baseSyncVersion",
      (.num (JsNumber.ofInt md.baseSyncVersion) : Json D)),
      (codes "fieldVersions", .obj (writtenVersions D md.fieldVersions)),
      (codes "mutationId", .str md.mutationId),
      (codes "originId", .str md.originId)]) := by
    show [codes "baseSyncVersion", codes "fieldVersions",
      codes "mutationId", codes "originId"].Pairwise (· < ·)
    decide
  rw [encodedMeta, canonicalTree, Option.map_eq_some_iff]
  refine ⟨_, (assemble_fixed N hord fun k hk =>
    (nfc_plainKey N (hkeys k hk)).1).mpr ?_, rfl⟩
  rw [show (Members.lookup objectText _).join = none from rfl]
  simp only [treeMembers, canonicalTree, List.map_cons, List.map_nil]
  rw [if_neg (by decide), if_neg (by decide), if_neg (by decide),
    if_neg (by decide)]
  rw [Normal, canonicalTree] at hversions
  rw [hversions]
  rfl

omit [JsNumber D] in
theorem wf_put {m : List (Text × Json D)} (hm : (Json.obj m).Wf) {k : Text}
    {v : Json D} (hv : v.Wf) : (Json.obj (Members.put k v m)).Wf := by
  obtain ⟨hord, hmem⟩ := hm
  refine ⟨Members.ordered_put hord, wfMembers_iff.mpr fun p hp => ?_⟩
  have hlookup := Members.lookup_of_mem (Members.ordered_put hord) hp
  rw [Members.lookup_put] at hlookup
  split at hlookup
  · rw [← Option.some.inj hlookup]
    exact hv
  · exact wfMembers_iff.mp hmem p (Members.mem_of_lookup hlookup)

theorem wf_encodedMeta
    (h : Writable md.fieldVersions) : (encodedMeta md : Json D).Wf := by
  refine ⟨?_, wfMembers_iff.mpr ?_⟩
  · show [codes "baseSyncVersion", codes "fieldVersions",
      codes "mutationId", codes "originId"].Pairwise (· < ·)
    decide
  · have hversions : (Json.obj (writtenVersions D md.fieldVersions)).Wf := by
      refine ⟨?_, wfMembers_iff.mpr fun p hp => ?_⟩
      · rw [Members.Ordered, keys_writtenVersions]
        exact h.ordered
      · obtain ⟨q, -, rfl⟩ := List.mem_map.mp hp
        trivial
    rw [List.forall_mem_cons, List.forall_mem_cons, List.forall_mem_cons,
      List.forall_mem_cons]
    exact ⟨trivial, hversions, trivial, trivial,
      fun _ h => (List.not_mem_nil h).elim⟩

theorem isBusinessKey_metaKey : isBusinessKey metaKey = false := by
  decide

/-- What may be written may be read back. -/
theorem writable_of_valid (hord : Members.Ordered md.fieldVersions)
    (h : moonlightRecordMetaIsValidForWrite md recordType = true) :
    Writable md.fieldVersions
      ∧ ∀ k ∈ Members.keys md.fieldVersions,
        k ∈ allowedFieldPaths recordType := by
  unfold moonlightRecordMetaIsValidForWrite metaIsValid at h
  simp only [Bool.and_eq_true, List.all_eq_true, List.contains_iff_mem] at h
  have hall : ∀ k ∈ Members.keys md.fieldVersions,
      k ∈ allowedFieldPaths recordType := by
    intro k hk
    obtain ⟨p, hp, rfl⟩ := List.mem_map.mp hk
    exact (h.2 p hp).1
  refine ⟨⟨hord, fun k hk => ?_, fun p hp => ?_⟩, hall⟩
  · have hplain := plainPath_of_mem (separate_allowed recordType) (hall k hk)
    unfold plainPath at hplain
    simp only [Bool.and_eq_true] at hplain
    exact hplain.1.1.1
  · have hvalue := (h.2 p hp).2
    unfold isNonNegativeInteger isSafeInteger MAX_SAFE_INTEGER at hvalue
    simp only [Bool.and_eq_true, decide_eq_true_eq] at hvalue
    omega

/-- The metadata of a payload reads back. -/
theorem extractMeta_encodedMeta (h : Writable md.fieldVersions)
    (business : List (Text × Json D)) :
    extractMeta (Members.put metaKey (encodedMeta md) business)
      = some { md with baseSyncVersion :=
        (JsNumber.toInt (JsNumber.ofInt md.baseSyncVersion : D)).getD (-1) } := by
  unfold extractMeta
  rw [Members.lookup_put_same, encodedMeta]
  show (versionsOf (writtenVersions D md.fieldVersions)).map _ = _
  rw [versionsOf_written h]
  rfl

/-- A payload that is written with metadata reads back. -/
theorem payloadWithMeta_reads {P : Platform D} {business : List (Text × Json D)}
    {canonical : Text} (hnormal : Normal P.normalizer (.obj business))
    (hbusiness : Business business) (hord : Members.Ordered md.fieldVersions)
    (h : moonlightPayloadWithMeta P business md recordType = .ok canonical) :
    ∃ values md', payloadObject canonical = some values
      ∧ businessPayload values = business
      ∧ extractMeta values = some md'
      ∧ md'.fieldVersions = md.fieldVersions := by
  unfold moonlightPayloadWithMeta at h
  split at h
  · cases h
  rename_i hcheck
  rw [not_or, Bool.not_eq_true, Bool.not_eq_false'] at hcheck
  obtain ⟨hwritable, -⟩ := writable_of_valid hord hcheck.2
  have hkept : (business.filter fun p => p.1 ≠ proto) = business := by
    refine List.filter_eq_self.mpr fun p hp => ?_
    have hkey := hbusiness p.1 (List.mem_map_of_mem hp)
    unfold isBusinessKey at hkey
    rw [Bool.and_eq_true] at hkey
    exact hkey.2
  rw [hkept] at h
  obtain ⟨w, hw, hparse⟩ := canonicalizeJson_text P.normalizer
    (wf_put (hnormal.wf P.normalizer) (wf_encodedMeta hwritable)) h
  rw [canonicalTree_put P.normalizer hnormal
    (P.normalizer.nfc_ascii metaKey (by decide)) (by decide) (by decide)
    (canonicalTree_encodedMeta P.normalizer hwritable)] at hw
  obtain rfl := Option.some.inj hw
  let normalised : MoonlightRecordMeta := { md with
    mutationId := P.normalizer.nfc md.mutationId
    originId := P.normalizer.nfc md.originId }
  have hread := @extractMeta_encodedMeta D _ normalised hwritable business
  refine ⟨_, _, ?_, ?_, hread, rfl⟩
  · unfold payloadObject
    rw [hparse]
  · rw [businessPayload, Members.filter_put isBusinessKey_metaKey]
    exact hbusiness.eq

end Merge

end RemoteDesk.Moonlight
