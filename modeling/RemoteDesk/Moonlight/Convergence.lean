/-
Two Moonlight rows converge, whichever side resolves them.

`Mirror` compares the two decisions; each branch of the resolver mirrors
itself (`recordForEnvelopeOrder_mirror`, `merge_swap`,
`resolveLive_mirror`, `resolveOrder_mirror`). What a merge writes is read
off its canonical payload.
-/
import RemoteDesk.Moonlight.Merge

namespace RemoteDesk.Moonlight

open Lib

-- =============================== envelopes

theorem compare_swap (a b : MoonlightRecord) :
    compareMoonlightRecordEnvelope a b
      = -compareMoonlightRecordEnvelope b a := by
  unfold compareMoonlightRecordEnvelope
  split_ifs
  all_goals omega

variable {a b r : MoonlightRecord}

/-- Equal envelopes are equal in every part. -/
theorem compare_eq_zero :
    compareMoonlightRecordEnvelope a b = 0 ↔ a.resetEpoch = b.resetEpoch
      ∧ a.syncVersion = b.syncVersion ∧ a.updatedAt = b.updatedAt := by
  constructor
  · intro h
    unfold compareMoonlightRecordEnvelope at h
    split_ifs at h
    all_goals omega
  · intro ⟨hepoch, hversion, hupdated⟩
    unfold compareMoonlightRecordEnvelope
    rw [if_neg (not_not.mpr hepoch), if_neg (not_not.mpr hversion),
      if_neg (not_not.mpr hupdated)]

theorem sameScope_comm : sameScope a b ↔ sameScope b a := by
  unfold sameScope
  constructor
  · intro ⟨h1, h2, h3, h4, h5, h6⟩
    exact ⟨h1.symm, h2.symm, h3.symm, h4.symm, h5.symm, h6.symm⟩
  · intro ⟨h1, h2, h3, h4, h5, h6⟩
    exact ⟨h1.symm, h2.symm, h3.symm, h4.symm, h5.symm, h6.symm⟩

theorem sameContent_symm (h : sameContent a b) : sameContent b a := by
  obtain ⟨h1, h2, h3, h4, h5, h6, h7, h8, h9⟩ := h
  exact ⟨h1.symm, h2.symm, h3.symm, h4.symm, h5.symm, h6.symm, h7.symm,
    h8.symm, h9.symm⟩

theorem sameContent_comm : sameContent a b ↔ sameContent b a :=
  ⟨sameContent_symm, sameContent_symm⟩

/-- The same row, as far as scope, content and envelope tell. -/
structure SameRecord (a b : MoonlightRecord) : Prop where
  scope : sameScope a b
  content : sameContent a b
  envelope : compareMoonlightRecordEnvelope a b = 0

theorem SameRecord.refl (a : MoonlightRecord) : SameRecord a a where
  scope := ⟨Eq.refl _, Eq.refl _, Eq.refl _, Eq.refl _, Eq.refl _, Eq.refl _⟩
  content := by simp [sameContent]
  envelope := compare_eq_zero.mpr ⟨Eq.refl _, Eq.refl _, Eq.refl _⟩

/-- Two decisions that leave the same behind. -/
def Mirror (d e : MoonlightConflictDecision) : Prop :=
  (d.action = .quarantineBoth ∧ e.action = .quarantineBoth)
    ∨ ∃ r s, d.record = some r ∧ e.record = some s ∧ SameRecord r s
      ∧ d.conflictedPaths = e.conflictedPaths

theorem Mirror.both {d e : MoonlightConflictDecision}
    (hd : d.action = .quarantineBoth) (he : e.action = .quarantineBoth) :
    Mirror d e :=
  .inl ⟨hd, he⟩

/-- The same row on both sides. -/
theorem Mirror.same {d e : MoonlightConflictDecision} (hd : d.record = some r)
    (he : e.record = some r)
    (hpaths : d.conflictedPaths = e.conflictedPaths) : Mirror d e :=
  .inr ⟨r, r, hd, he, SameRecord.refl r, hpaths⟩

theorem recordForEnvelopeOrder_mirror (a b : MoonlightRecord)
    (reason reason' : MoonlightConflictReason) :
    Mirror (recordForEnvelopeOrder a b reason reason')
      (recordForEnvelopeOrder b a reason reason') := by
  have hswap := compare_swap a b
  unfold recordForEnvelopeOrder
  dsimp only
  rcases lt_trichotomy (compareMoonlightRecordEnvelope b a) 0 with h | h | h
  · rw [if_neg h.asymm, if_pos h, if_pos (by omega)]
    exact .same rfl rfl rfl
  · rw [if_neg (by omega), if_neg (by omega), if_neg (by omega),
      if_neg (by omega)]
    exact .both rfl rfl
  · rw [if_pos h, if_neg (by omega), if_pos (by omega)]
    exact .same rfl rfl rfl

-- ============================== valid rows

section Rows

variable {D : Type} [JsNumber D] {P : Platform D}

omit [JsNumber D] in
/-- What the payload of a live row is. -/
structure LivePayload [JsNumber D] (P : Platform D) (r : MoonlightRecord)
    (values : List (Text × Json D)) (md : MoonlightRecordMeta) : Prop where
  parsed : payloadObject r.payload = some values
  normal : Normal P.normalizer (.obj values)
  extracted : extractMeta values = some md
  semantics : recordPayloadSemanticsAreValid P r values = true

theorem valid_content (h : Valid P r) :
    (if r.deletedAt > 0 then validateTombstone r else validateLive P r)
      = .none := by
  unfold Valid moonlightValidateRecord at h
  split at h
  · cases h
  split at h
  · cases h
  split at h
  · rename_i henvelope
    exact absurd h henvelope
  split at h
  · cases h
  split at h
  · cases h
  dsimp only at h
  by_cases hlive : r.deletedAt > 0
  · rw [if_pos hlive] at h ⊢
    split at h
    · exact h
    · rename_i hcontent
      exact not_not.mp hcontent
  · rw [if_neg hlive] at h ⊢
    split at h
    · exact h
    · rename_i hcontent
      exact not_not.mp hcontent

theorem livePayload (h : Valid P r) (hlive : ¬ r.deletedAt > 0) :
    ∃ values md, LivePayload P r values md := by
  have hcontent := valid_content h
  rw [if_neg hlive] at hcontent
  unfold validateLive at hcontent
  split at hcontent
  · rename_i reason herror
    rw [hcontent] at herror
    unfold moonlightCanonicalizeJson at herror
    split at herror
    · cases herror
    split at herror
    · split at herror
      · cases herror
      · cases herror
    split at herror
    · cases herror
    split at herror
    · cases herror
    · cases herror
  rename_i canonical hcanonical
  split at hcontent
  · cases hcontent
  rename_i hsame
  rw [not_not] at hsame
  rw [hsame] at hcanonical
  obtain ⟨tree, htree, -, hnormal⟩ := normal_of_canonical P.normalizer
    hcanonical
  split at hcontent
  · cases hcontent
  rename_i values hvalues
  have hobj : tree = .obj values := by
    unfold payloadObject at hvalues
    rw [htree] at hvalues
    split at hvalues
    · rename_i members hmembers
      rw [Option.some.injEq] at hvalues hmembers
      rw [hmembers, hvalues]
    · cases hvalues
  split at hcontent
  · cases hcontent
  rename_i hmeta
  rw [Bool.not_eq_true, Bool.not_eq_false', Option.any_eq_true] at hmeta
  obtain ⟨md, hmd, -⟩ := hmeta
  split at hcontent
  · cases hcontent
  split at hcontent
  · cases hcontent
  split at hcontent
  · cases hcontent
  rename_i hsemantics
  rw [Bool.not_eq_true, Bool.not_eq_false'] at hsemantics
  exact ⟨values, md, hvalues, hobj ▸ hnormal, hmd, hsemantics⟩

/-- A live row's business payload and metadata. -/
theorem LivePayload.reads {values : List (Text × Json D)}
    {md : MoonlightRecordMeta} (h : LivePayload P r values md)
    (hlive : ¬ r.deletedAt > 0) :
    moonlightRecordBusinessPayload r = some (businessPayload values)
      ∧ moonlightRecordMeta D r = some md := by
  constructor
  · rw [moonlightRecordBusinessPayload, if_neg hlive, h.parsed]
    rfl
  · rw [moonlightRecordMeta, if_neg hlive, h.parsed]
    exact h.extracted

theorem versionsOf_keys {raw : List (Text × Json D)}
    {versions : List (Text × Int)} (h : versionsOf raw = some versions) :
    (Members.keys versions).Sublist (Members.keys raw) := by
  induction raw generalizing versions with
  | nil =>
    obtain rfl := Option.some.inj h
    exact List.Sublist.refl _
  | cons p raw ih =>
    obtain ⟨key, value⟩ := p
    cases value with
    | num d =>
      rw [versionsOf, Option.map_eq_some_iff] at h
      obtain ⟨rest, hrest, rfl⟩ := h
      split
      · exact (ih hrest).cons _
      · exact (ih hrest).cons_cons _
    | _ => cases h

theorem LivePayload.ordered {values : List (Text × Json D)}
    {md : MoonlightRecordMeta} (h : LivePayload P r values md) :
    Members.Ordered md.fieldVersions := by
  have hmeta := h.extracted
  unfold extractMeta at hmeta
  split at hmeta
  · rename_i raw hraw
    split at hmeta
    · rename_i hversions
      rw [Option.map_eq_some_iff] at hmeta
      obtain ⟨versions, hread, rfl⟩ := hmeta
      have hnormal := (h.normal.of_lookup P.normalizer (by decide) hraw
        ).of_lookup P.normalizer (by decide) hversions
      have hord := ((normal_obj P.normalizer).mp hnormal).1
      exact List.Pairwise.sublist (versionsOf_keys hread) hord
    · cases hmeta
  · cases hmeta

omit [JsNumber D] in
theorem business_businessPayload (values : List (Text × Json D)) :
    Business (businessPayload values) := by
  intro k hk
  obtain ⟨p, hp, rfl⟩ := List.mem_map.mp hk
  exact (List.mem_filter.mp hp).2

-- ================================== merges

theorem unionFieldPaths_comm {a b : MoonlightRecordMeta}
    (ha : Members.Ordered a.fieldVersions)
    (hb : Members.Ordered b.fieldVersions) :
    unionFieldPaths a b = unionFieldPaths b a := by
  have hnodup : ∀ {x y : MoonlightRecordMeta},
      Members.Ordered x.fieldVersions → Members.Ordered y.fieldVersions →
      (Members.keys x.fieldVersions
        ++ (Members.keys y.fieldVersions).filter fun path =>
          path ∉ Members.keys x.fieldVersions).Nodup := by
    intro x y hx hy
    rw [List.nodup_append]
    refine ⟨hx.imp fun h => h.ne, (hy.imp fun h => h.ne).filter _, ?_⟩
    intro p hp q hq heq
    have hnot := (List.mem_filter.mp hq).2
    rw [decide_eq_true_eq] at hnot
    exact hnot (heq ▸ hp)
  have hperm := (List.perm_ext_iff_of_nodup (hnodup ha hb)
    (hnodup hb ha)).mpr (fun p => by
      simp only [List.mem_append, List.mem_filter, decide_eq_true_eq]
      tauto)
  unfold unionFieldPaths
  exact (((List.perm_insertionSort (· ≤ ·) _).trans hperm).trans
    (List.perm_insertionSort (· ≤ ·) _).symm).eq_of_pairwise
      (fun x y _ _ hxy hyx => le_antisymm hxy hyx)
      (List.pairwise_insertionSort (· ≤ ·) _)
      (List.pairwise_insertionSort (· ≤ ·) _)

theorem mergedRow_swap {order : Int} (horder : order ≠ 0)
    (hepoch : a.resetEpoch = b.resetEpoch) (payload : Text) (updatedAt : Int) :
    mergedRow b a (-order) payload updatedAt
      = mergedRow a b order payload updatedAt := by
  unfold mergedRow
  rw [max_comm b.syncVersion, min_comm b.createdAt, hepoch]
  by_cases hpos : order > 0
  · rw [if_pos hpos, if_neg (by omega)]
  · rw [if_neg hpos, if_pos (by omega)]

/-- A merge is the same, whichever row is called current. -/
theorem merge_swap (P : Platform D) {a b : Side D}
    (hepoch : a.record.resetEpoch = b.record.resetEpoch)
    (htype : a.record.recordType = b.record.recordType)
    (ha : Members.Ordered a.fieldMeta.fieldVersions)
    (hb : Members.Ordered b.fieldMeta.fieldVersions)
    (context : Option MoonlightConflictMergeContext) :
    mergeConcurrentMutableRecord P b a context
      = mergeConcurrentMutableRecord P a b context := by
  cases context with
  | none => rfl
  | some context =>
    unfold mergeConcurrentMutableRecord
    dsimp only
    have hcheck : (!isSafeInteger context.updatedAt
        ∨ context.updatedAt < b.record.updatedAt
        ∨ context.updatedAt < a.record.updatedAt
        ∨ max b.record.syncVersion a.record.syncVersion
          ≥ MAX_SAFE_INTEGER)
        ↔ (!isSafeInteger context.updatedAt
        ∨ context.updatedAt < a.record.updatedAt
        ∨ context.updatedAt < b.record.updatedAt
        ∨ max a.record.syncVersion b.record.syncVersion
          ≥ MAX_SAFE_INTEGER) := by
      rw [max_comm]
      tauto
    by_cases hbad : !isSafeInteger context.updatedAt
        ∨ context.updatedAt < a.record.updatedAt
        ∨ context.updatedAt < b.record.updatedAt
        ∨ max a.record.syncVersion b.record.syncVersion
          ≥ MAX_SAFE_INTEGER
    · rw [if_pos hbad, if_pos (hcheck.mpr hbad)]
    rw [if_neg hbad, if_neg fun h => hbad (hcheck.mp h)]
    have hswap := compare_swap a.record b.record
    generalize horder : compareMoonlightRecordEnvelope b.record a.record
      = order at hswap
    rw [hswap]
    by_cases hzero : order = 0
    · rw [if_pos hzero, if_pos (by omega)]
    rw [if_neg hzero, if_neg (by omega)]
    have hwinner : (if -order > 0 then a else b)
        = if order > 0 then b else a := by
      by_cases hpos : order > 0
      · rw [if_pos hpos, if_neg (by omega)]
      · rw [if_neg hpos, if_pos (by omega)]
    rw [hwinner, unionFieldPaths_comm hb ha, mergePaths_swap a b hzero,
      max_comm b.record.syncVersion]
    simp only [mergedRow_swap hzero hepoch, htype]

/-- A merge quarantines both rows, or leaves one row and its paths. -/
theorem merge_decides (a b : Side D)
    (context : Option MoonlightConflictMergeContext) :
    Mirror (mergeConcurrentMutableRecord P a b context)
      (mergeConcurrentMutableRecord P a b context) := by
  generalize hd : mergeConcurrentMutableRecord P a b context = d
  cases hrecord : d.record with
  | some r => exact .same hrecord hrecord rfl
  | none =>
    have haction : d.action = .quarantineBoth := by
      unfold mergeConcurrentMutableRecord at hd
      split at hd
      · rw [← hd]
        rfl
      split at hd
      · rw [← hd]
        rfl
      dsimp only at hd
      split at hd
      · rw [← hd]
        rfl
      split at hd
      · rw [← hd]
        rfl
      split at hd
      · rw [← hd]
        rfl
      split at hd
      · rw [← hd] at hrecord
        cases hrecord
      · rw [← hd]
        rfl
    exact .both haction haction

-- =============================== resolving

omit [JsNumber D] in
theorem identityConflict_comm (htype : a.recordType = b.recordType)
    (pa pb : List (Text × Json D)) :
    (identityConflict a b pa pb).isSome
      = (identityConflict b a pb pa).isSome := by
  have hne : ∀ key, (textField pa key ≠ textField pb key)
      = (textField pb key ≠ textField pa key) :=
    fun key => propext ne_comm
  unfold identityConflict
  simp only [htype, hne, sameContent_comm]

theorem resolveLive_mirror (ha : Valid P a) (hb : Valid P b)
    (hla : ¬ a.deletedAt > 0) (hlb : ¬ b.deletedAt > 0)
    (htype : a.recordType = b.recordType) (hepoch : a.resetEpoch = b.resetEpoch)
    (context : Option MoonlightConflictMergeContext) :
    Mirror
      (resolveLive P a b (moonlightRecordMeta D a) (moonlightRecordMeta D b)
        context)
      (resolveLive P b a (moonlightRecordMeta D b) (moonlightRecordMeta D a)
        context) := by
  obtain ⟨va, ma, hpa⟩ := livePayload ha hla
  obtain ⟨vb, mb, hpb⟩ := livePayload hb hlb
  obtain ⟨hba, hma⟩ := hpa.reads hla
  obtain ⟨hbb, hmb⟩ := hpb.reads hlb
  unfold resolveLive
  rw [hba, hbb, hma, hmb]
  dsimp only
  have hidentity := identityConflict_comm htype (businessPayload va)
    (businessPayload vb)
  cases h : identityConflict a b (businessPayload va) (businessPayload vb) with
  | some reason =>
    rw [h] at hidentity
    obtain ⟨reason', h'⟩ := Option.isSome_iff_exists.mp hidentity.symm
    rw [h']
    exact .both rfl rfl
  | none =>
    rw [h] at hidentity
    have h' := Option.isSome_eq_false_iff.mp hidentity.symm
    rw [Option.isNone_iff_eq_none] at h'
    rw [h']
    dsimp only
    by_cases hcontent : sameContent a b
    · rw [if_pos hcontent, if_pos (sameContent_symm hcontent)]
      exact recordForEnvelopeOrder_mirror a b _ _
    rw [if_neg hcontent, if_neg fun h => hcontent (sameContent_symm h)]
    by_cases hconcurrent : ma.mutationId ≠ mb.mutationId
        ∧ ma.baseSyncVersion = mb.baseSyncVersion
        ∧ (a.recordType = .settings ∨ a.recordType = .profile)
    · rw [if_pos hconcurrent, if_pos ⟨hconcurrent.1.symm,
        hconcurrent.2.1.symm, htype ▸ hconcurrent.2.2⟩]
      have hswap := @merge_swap D _ P ⟨a, businessPayload va, ma⟩
        ⟨b, businessPayload vb, mb⟩ hepoch htype hpa.ordered hpb.ordered
        context
      rw [hswap]
      exact merge_decides _ _ context
    · rw [if_neg hconcurrent, if_neg fun h => hconcurrent
        ⟨h.1.symm, h.2.1.symm, htype ▸ h.2.2⟩]
      exact recordForEnvelopeOrder_mirror a b _ _

theorem resolveOrder_mirror (ha : Valid P a) (hb : Valid P b)
    (htype : a.recordType = b.recordType)
    (context : Option MoonlightConflictMergeContext) :
    Mirror
      (resolveOrder P a b (moonlightRecordMeta D a) (moonlightRecordMeta D b)
        context)
      (resolveOrder P b a (moonlightRecordMeta D b) (moonlightRecordMeta D a)
        context) := by
  unfold resolveOrder
  by_cases hepoch : a.resetEpoch = b.resetEpoch
  · rw [if_neg (not_not.mpr hepoch), if_neg (not_not.mpr hepoch.symm)]
    by_cases hda : a.deletedAt > 0
    · by_cases hdb : b.deletedAt > 0
      · rw [if_neg fun h => h.2 hdb, if_neg fun h => h.2 hda,
          if_pos ⟨hda, hdb⟩, if_neg fun h => h.2 hda,
          if_neg fun h => h.2 hdb, if_pos ⟨hdb, hda⟩]
        exact recordForEnvelopeOrder_mirror a b _ _
      · rw [if_pos ⟨hda, hdb⟩, if_neg fun h => hdb h.1, if_pos ⟨hda, hdb⟩]
        exact .same rfl rfl rfl
    · by_cases hdb : b.deletedAt > 0
      · rw [if_neg fun h => hda h.1, if_pos ⟨hdb, hda⟩, if_pos ⟨hdb, hda⟩]
        exact .same rfl rfl rfl
      · rw [if_neg fun h => hda h.1, if_neg fun h => hdb h.1,
          if_neg fun h => hda h.1, if_neg fun h => hdb h.1,
          if_neg fun h => hda h.1, if_neg fun h => hdb h.1]
        exact resolveLive_mirror ha hb hda hdb htype hepoch context
  · rw [if_pos hepoch, if_pos (Ne.symm hepoch)]
    by_cases hlt : b.resetEpoch > a.resetEpoch
    · rw [if_pos hlt, if_neg hlt.asymm]
      exact .same rfl rfl rfl
    · have hgt : a.resetEpoch > b.resetEpoch := by omega
      rw [if_neg hlt, if_pos hgt]
      exact .same rfl rfl rfl

/-- Both rows are of one mutation. -/
def reused (ma mb : Option MoonlightRecordMeta) : Bool :=
  match ma, mb with
  | some ma, some mb => ma.mutationId = mb.mutationId
  | _, _ => false

theorem reused_none (mb : Option MoonlightRecordMeta) :
    reused none mb = false := rfl

theorem reused_comm (ma mb : Option MoonlightRecordMeta) :
    reused ma mb = reused mb ma := by
  cases ma with
  | none =>
    cases mb with
    | none => rfl
    | some mb => rfl
  | some ma =>
    cases mb with
    | none => rfl
    | some mb => simp [reused, eq_comm]

/-- The branches of the resolver for two valid rows. -/
theorem resolve_eq (ha : Valid P a) (hb : Valid P b)
    (context : Option MoonlightConflictMergeContext) :
    resolveMoonlightRecordConflict P a b context
      = if ¬ sameScope a b then quarantineBoth .scopeMismatch
        else if sameContent a b
            ∧ compareMoonlightRecordEnvelope a b = 0 then
          { action := .keepCurrent, reason := .identicalRetry,
            record := some a }
        else if reused (moonlightRecordMeta D a)
            (moonlightRecordMeta D b) then
          if ¬ sameContent a b then quarantineBoth .mutationReuseCorruption
          else recordForEnvelopeOrder a b .identicalRetry .identicalRetry
        else resolveOrder P a b (moonlightRecordMeta D a)
          (moonlightRecordMeta D b) context := by
  unfold resolveMoonlightRecordConflict
  rw [if_neg (not_not.mpr ha), if_neg (not_not.mpr hb)]
  simp only [compare_eq_zero]
  split
  · rfl
  split
  · rfl
  cases hma : moonlightRecordMeta D a with
  | none => rfl
  | some ma =>
    cases hmb : moonlightRecordMeta D b with
    | none => rfl
    | some mb => simp [reused]

/-- A decision and the one from the other side. -/
theorem resolve_mirror (ha : Valid P a) (hb : Valid P b)
    (context : Option MoonlightConflictMergeContext) :
    Mirror (resolveMoonlightRecordConflict P a b context)
      (resolveMoonlightRecordConflict P b a context) := by
  rw [resolve_eq ha hb, resolve_eq hb ha]
  by_cases hscope : sameScope a b
  · rw [if_neg (not_not.mpr hscope),
      if_neg (not_not.mpr (sameScope_comm.mp hscope))]
    have hswap := compare_swap a b
    by_cases hretry : sameContent a b
        ∧ compareMoonlightRecordEnvelope a b = 0
    · rw [if_pos hretry,
        if_pos ⟨sameContent_symm hretry.1, by omega⟩]
      exact .inr ⟨a, b, rfl, rfl, ⟨hscope, hretry.1, hretry.2⟩, rfl⟩
    · have hretry' : ¬ (sameContent b a
          ∧ compareMoonlightRecordEnvelope b a = 0) :=
        fun h => hretry ⟨sameContent_symm h.1, by omega⟩
      rw [if_neg hretry, if_neg hretry']
      rw [reused_comm (moonlightRecordMeta D b)]
      by_cases hreuse : reused (moonlightRecordMeta D a)
          (moonlightRecordMeta D b) = true
      · rw [if_pos hreuse, if_pos hreuse]
        by_cases hcontent : sameContent a b
        · rw [if_neg (not_not.mpr hcontent),
            if_neg (not_not.mpr (sameContent_symm hcontent))]
          exact recordForEnvelopeOrder_mirror a b _ _
        · rw [if_pos hcontent,
            if_pos fun h => hcontent (sameContent_symm h)]
          exact .both rfl rfl
      · rw [if_neg hreuse, if_neg hreuse]
        exact resolveOrder_mirror ha hb hscope.2.2.1 context
  · rw [if_pos hscope, if_pos fun h => hscope (sameScope_comm.mpr h)]
    exact .both rfl rfl

-- ============================== tombstones

theorem recordMeta_tombstone (h : r.deletedAt > 0) :
    moonlightRecordMeta D r = none :=
  if_pos h

/-- A tombstone stays against a live row of its epoch. -/
theorem resolve_tombstone (ha : Valid P a) (hb : Valid P b)
    (hepoch : a.resetEpoch = b.resetEpoch) (hda : a.deletedAt > 0)
    (hlb : ¬ b.deletedAt > 0) (context : Option MoonlightConflictMergeContext) :
    (∀ r, (resolveMoonlightRecordConflict P a b context).record = some r →
        r = a)
      ∧ ∀ r, (resolveMoonlightRecordConflict P b a context).record = some r →
        r = a := by
  have hcontent : ¬ sameContent a b := by
    intro h
    have hdeleted := h.2.2.2.1
    omega
  have hcontent' : ¬ sameContent b a :=
    fun h => hcontent (sameContent_symm h)
  constructor
  · intro r hr
    rw [resolve_eq ha hb] at hr
    split at hr
    · cases hr
    rw [if_neg (fun h => hcontent h.1), recordMeta_tombstone hda,
      reused_none, if_neg Bool.false_ne_true] at hr
    unfold resolveOrder at hr
    rw [if_neg (not_not.mpr hepoch), if_pos ⟨hda, hlb⟩] at hr
    exact (Option.some.inj hr).symm
  · intro r hr
    rw [resolve_eq hb ha] at hr
    split at hr
    · cases hr
    rw [if_neg (fun h => hcontent' h.1), reused_comm,
      recordMeta_tombstone hda, reused_none,
      if_neg Bool.false_ne_true] at hr
    unfold resolveOrder at hr
    rw [if_neg (not_not.mpr hepoch.symm), if_neg (fun h => hlb h.1),
      if_pos ⟨hda, hlb⟩] at hr
    exact (Option.some.inj hr).symm

-- ========================== written merges

/-- What a path has in the row that is written: the value of the side with
the greater version, or else of the newer envelope, and that version. -/
structure MergedField (a b : Side D) (payload : List (Text × Json D))
    (md : MoonlightRecordMeta) (path : Text) : Prop where
  present : (valueAtPath payload path).isSome
  left : b.version path < a.version path →
    valueAtPath payload path = a.value path
  right : a.version path < b.version path →
    valueAtPath payload path = b.value path
  tie : a.version path = b.version path →
    valueAtPath payload path =
      if compareMoonlightRecordEnvelope b.record a.record > 0
        then b.value path else a.value path
  version : Members.lookup path md.fieldVersions
    = some (max (a.version path) (b.version path))

theorem mem_unionFieldPaths {a b : MoonlightRecordMeta} {path : Text} :
    path ∈ unionFieldPaths a b ↔ path ∈ Members.keys a.fieldVersions
      ∨ path ∈ Members.keys b.fieldVersions := by
  unfold unionFieldPaths
  rw [(List.perm_insertionSort (· ≤ ·) _).mem_iff]
  simp only [List.mem_append, List.mem_filter, decide_eq_true_eq]
  tauto

theorem nodup_unionFieldPaths {a b : MoonlightRecordMeta}
    (ha : Members.Ordered a.fieldVersions)
    (hb : Members.Ordered b.fieldVersions) :
    (unionFieldPaths a b).Nodup := by
  unfold unionFieldPaths
  rw [(List.perm_insertionSort (· ≤ ·) _).nodup_iff, List.nodup_append]
  refine ⟨ha.imp fun h => h.ne, (hb.imp fun h => h.ne).filter _, ?_⟩
  intro p hp q hq heq
  have hnot := (List.mem_filter.mp hq).2
  rw [decide_eq_true_eq] at hnot
  exact hnot (heq ▸ hp)

variable {context : Option MoonlightConflictMergeContext}

/-- What a merge that is written consists of. -/
theorem merge_written {a b : Side D}
    (h : (mergeConcurrentMutableRecord P a b context).action
      = .writeMerged) :
    ∃ result row canonical, ∃ side ∈ [a, b], ∃ md : MoonlightRecordMeta,
      mergePaths a b (compareMoonlightRecordEnvelope b.record a.record)
          { payload := side.payload }
          (unionFieldPaths a.fieldMeta b.fieldMeta) = some result
        ∧ md.fieldVersions = result.versions
        ∧ moonlightPayloadWithMeta P result.payload md a.record.recordType
          = .ok canonical
        ∧ row.payload = canonical ∧ row.deletedAt = 0
        ∧ (mergeConcurrentMutableRecord P a b context).record
          = some row := by
  unfold mergeConcurrentMutableRecord at h ⊢
  split at h
  · cases h
  rename_i context
  dsimp only at h ⊢
  split at h
  · cases h
  rename_i hcheck
  rw [if_neg hcheck]
  split at h
  · cases h
  rename_i horder
  rw [if_neg horder]
  split at h
  · cases h
  rename_i result hresult
  split at h
  · cases h
  rename_i canonical hcanonical
  split at h
  swap
  · cases h
  rename_i hvalid
  rw [if_pos hvalid]
  have hside : (if compareMoonlightRecordEnvelope b.record a.record > 0
      then b else a) ∈ [a, b] := by
    split
    · simp
    · simp
  exact ⟨result, _, canonical, _, hside, _, hresult, rfl, hcanonical, rfl,
    rfl, rfl⟩

/-- A written merge, path by path. -/
theorem merge_fields {a b : Side D} (hta : Normal P.normalizer (.obj a.payload))
    (htb : Normal P.normalizer (.obj b.payload)) (hba : Business a.payload)
    (hbb : Business b.payload) (hoa : Members.Ordered a.fieldMeta.fieldVersions)
    (hob : Members.Ordered b.fieldMeta.fieldVersions)
    (h : (mergeConcurrentMutableRecord P a b context).action
      = .writeMerged) :
    ∃ merged payload md,
      (mergeConcurrentMutableRecord P a b context).record = some merged
      ∧ moonlightRecordBusinessPayload merged = some payload
      ∧ moonlightRecordMeta D merged = some md
      ∧ ∀ path ∈ unionFieldPaths a.fieldMeta b.fieldMeta,
        MergedField a b payload md path := by
  obtain ⟨result, row, canonical, side, hside, written, hresult, hwritten,
    hcanonical, hrow, hlive, hrecord⟩ := merge_written h
  obtain ⟨hord, hlookup⟩ := mergePaths_versions hresult
  have hord := hord Members.ordered_nil
  rw [← hwritten] at hord hlookup
  have hsideNormal : Normal P.normalizer (.obj side.payload)
      ∧ Business side.payload := by
    rcases List.mem_cons.mp hside with rfl | hside
    · exact ⟨hta, hba⟩
    · obtain rfl := List.mem_singleton.mp hside
      exact ⟨htb, hbb⟩
  have hcheckWrite : moonlightRecordMetaIsValidForWrite written
      a.record.recordType = true := by
    unfold moonlightPayloadWithMeta at hcanonical
    split at hcanonical
    · cases hcanonical
    · rename_i hmeta
      rw [not_or, Bool.not_eq_true, Bool.not_eq_false'] at hmeta
      exact hmeta.2
  obtain ⟨-, hallowed⟩ := writable_of_valid hord hcheckWrite
  have hsub : ∀ p ∈ unionFieldPaths a.fieldMeta b.fieldMeta,
      p ∈ allowedFieldPaths a.record.recordType := by
    intro p hp
    have hversion := hlookup p
    rw [if_pos hp] at hversion
    exact hallowed p (Members.mem_keys_of_lookup hversion)
  obtain ⟨htakes, -, hbusiness, hnormal⟩ := mergePaths_takes P.normalizer
    (separate_allowed a.record.recordType) hsub
    (nodup_unionFieldPaths hoa hob) hresult
  obtain ⟨values, md, hvalues, hpayload, hmd, hversions⟩ :=
    payloadWithMeta_reads (hnormal hta htb hsideNormal.1)
      (hbusiness hsideNormal.2) hord hcanonical
  refine ⟨row, result.payload, md, hrecord, ?_, ?_, fun path hpath => ?_⟩
  · rw [moonlightRecordBusinessPayload, hlive, if_neg (lt_irrefl 0), hrow,
      hvalues, Option.map_some, hpayload]
  · rw [moonlightRecordMeta, hlive, if_neg (lt_irrefl 0), hrow, hvalues]
    exact hmd
  · obtain ⟨hpresent, hvalue⟩ := htakes path hpath
    unfold chosen at hvalue
    refine ⟨hpresent, fun hlt => ?_, fun hlt => ?_, fun heq => ?_, ?_⟩
    · rw [hvalue, if_neg]
      rintro (h | h)
      · omega
      · omega
    · rw [hvalue, if_pos (.inl hlt)]
    · rw [hvalue]
      by_cases hpos : compareMoonlightRecordEnvelope b.record a.record > 0
      · rw [if_pos (.inr ⟨heq.symm, hpos⟩), if_pos hpos]
      · rw [if_neg hpos, if_neg]
        rintro (h | h)
        · omega
        · exact hpos h.2
    · rw [hversions, hlookup path, if_pos hpath]

theorem recordForEnvelopeOrder_action (a b : MoonlightRecord)
    (reason reason' : MoonlightConflictReason) :
    (recordForEnvelopeOrder a b reason reason').action ≠ .writeMerged := by
  unfold recordForEnvelopeOrder
  dsimp only
  split
  · simp
  split
  · simp
  · simp

/-- Only a merge writes a new row. -/
theorem resolve_writes (ha : Valid P a) (hb : Valid P b)
    (h : (resolveMoonlightRecordConflict P a b context).action
      = .writeMerged) :
    ¬ a.deletedAt > 0 ∧ ¬ b.deletedAt > 0
      ∧ ∀ sa sb : Side D, sa.record = a → sb.record = b →
        moonlightRecordBusinessPayload a = some sa.payload →
        moonlightRecordBusinessPayload b = some sb.payload →
        moonlightRecordMeta D a = some sa.fieldMeta →
        moonlightRecordMeta D b = some sb.fieldMeta →
        resolveMoonlightRecordConflict P a b context
          = mergeConcurrentMutableRecord P sa sb context := by
  rw [resolve_eq ha hb] at h ⊢
  split at h
  · cases h
  rename_i hscope
  rw [if_neg hscope]
  split at h
  · cases h
  rename_i hretry
  rw [if_neg hretry]
  split at h
  · split at h
    · cases h
    · exact absurd h (recordForEnvelopeOrder_action _ _ _ _)
  rename_i hreused
  rw [if_neg hreused]
  unfold resolveOrder at h ⊢
  split at h
  · split at h
    · cases h
    · cases h
  rename_i hepoch
  rw [if_neg hepoch]
  split at h
  · cases h
  rename_i hleft
  rw [if_neg hleft]
  split at h
  · cases h
  rename_i hright
  rw [if_neg hright]
  split at h
  · exact absurd h (recordForEnvelopeOrder_action _ _ _ _)
  rename_i hboth
  rw [if_neg hboth]
  have hlive : ¬ a.deletedAt > 0 ∧ ¬ b.deletedAt > 0 := by
    constructor
    · intro hda
      by_cases hdb : b.deletedAt > 0
      · exact hboth ⟨hda, hdb⟩
      · exact hleft ⟨hda, hdb⟩
    · intro hdb
      by_cases hda : a.deletedAt > 0
      · exact hboth ⟨hda, hdb⟩
      · exact hright ⟨hdb, hda⟩
  refine ⟨hlive.1, hlive.2, ?_⟩
  intro sa sb hra hrb hpa hpb hma hmb
  subst hra hrb
  unfold resolveLive at h ⊢
  rw [hpa, hpb, hma, hmb] at h ⊢
  dsimp only at h ⊢
  split at h
  · cases h
  split at h
  · exact absurd h (recordForEnvelopeOrder_action _ _ _ _)
  rename_i hcontent
  rw [if_neg hcontent]
  split at h
  · rename_i hconcurrent
    rw [if_pos hconcurrent]
  · exact absurd h (recordForEnvelopeOrder_action _ _ _ _)

/-- Two valid rows converge, whoever resolves them: the decisions mirror
one another, a row keeps itself, a tombstone is not undone within its
epoch, and a merge takes each field from the side that changed it last. -/
theorem moonlight_conflicts_converge (P : Platform D)
    {a b : MoonlightRecord} (ha : Valid P a) (hb : Valid P b)
    (context : Option MoonlightConflictMergeContext) :
    Mirror (resolveMoonlightRecordConflict P a b context)
        (resolveMoonlightRecordConflict P b a context)
      ∧ resolveMoonlightRecordConflict P a a context
        = { action := .keepCurrent, reason := .identicalRetry,
            record := some a }
      ∧ (a.resetEpoch = b.resetEpoch → a.deletedAt > 0 →
        ¬ b.deletedAt > 0 →
        ∀ r, (resolveMoonlightRecordConflict P a b context).record = some r
          ∨ (resolveMoonlightRecordConflict P b a context).record = some r →
          r.deletedAt > 0)
      ∧ ((resolveMoonlightRecordConflict P a b context).action
        = .writeMerged →
        ∃ (sa sb : Side D) (merged : MoonlightRecord)
          (payload : List (Text × Json D)) (md : MoonlightRecordMeta),
          sa.record = a ∧ sb.record = b
          ∧ moonlightRecordBusinessPayload a = some sa.payload
          ∧ moonlightRecordBusinessPayload b = some sb.payload
          ∧ moonlightRecordMeta D a = some sa.fieldMeta
          ∧ moonlightRecordMeta D b = some sb.fieldMeta
          ∧ (resolveMoonlightRecordConflict P a b context).record
            = some merged
          ∧ moonlightRecordBusinessPayload merged = some payload
          ∧ moonlightRecordMeta D merged = some md
          ∧ ∀ path, path ∈ Members.keys sa.fieldMeta.fieldVersions
              ∨ path ∈ Members.keys sb.fieldMeta.fieldVersions →
            MergedField sa sb payload md path) := by
  refine ⟨resolve_mirror ha hb context, ?_, fun hepoch hda hlb r hr => ?_,
    fun hwrite => ?_⟩
  · obtain ⟨hscope, hcontent, henvelope⟩ := SameRecord.refl a
    rw [resolve_eq ha ha, if_neg (not_not.mpr hscope),
      if_pos ⟨hcontent, henvelope⟩]
  · obtain ⟨hleft, hright⟩ := resolve_tombstone ha hb hepoch hda hlb context
    rcases hr with hr | hr
    · rw [hleft r hr]
      exact hda
    · rw [hright r hr]
      exact hda
  · obtain ⟨hla, hlb, hmerge⟩ := resolve_writes ha hb hwrite
    obtain ⟨va, ma, hpa⟩ := livePayload ha hla
    obtain ⟨vb, mb, hpb⟩ := livePayload hb hlb
    obtain ⟨hba, hma⟩ := hpa.reads hla
    obtain ⟨hbb, hmb⟩ := hpb.reads hlb
    let sa : Side D := ⟨a, businessPayload va, ma⟩
    let sb : Side D := ⟨b, businessPayload vb, mb⟩
    have heq := hmerge sa sb rfl rfl hba hbb hma hmb
    rw [heq] at hwrite ⊢
    obtain ⟨merged, payload, md, hrecord, hpayload, hmd, hfields⟩ :=
      merge_fields (hpa.normal.filter P.normalizer (by decide))
        (hpb.normal.filter P.normalizer (by decide))
        (business_businessPayload va) (business_businessPayload vb)
        hpa.ordered hpb.ordered hwrite
    exact ⟨sa, sb, merged, payload, md, rfl, rfl, hba, hbb, hma, hmb, hrecord,
      hpayload, hmd, fun path hpath =>
        hfields path (mem_unionFieldPaths.mpr hpath)⟩

end Rows

-- ================================= example

/-- The digests of three live rows and of a tombstone; integers for
numbers. -/
def profilePlatform : Platform Int where
  normalizer := ⟨id, fun _ => rfl, fun _ _ => rfl⟩
  digest bytes :=
    if bytes.length = 49 then beBytes 32
      0x54fe644deca32b926c2916634ba9163c2b83d96ce574b7ab2bdfd4139b040d7e
    else if bytes.length = 256 then beBytes 32
      0x08c688d94c082ca36352f1e417a21369bdbdb30785b9d6a8ef794f07459ab971
    else if bytes.length = 258 then beBytes 32
      0xc9ca1b1fce66354079d1e26d86b868ad3439660706ff5b37a0d70bf603cdd6a1
    else beBytes 32
      0x52e0f283702e7ab60a9e7464666e657dfda77b170e0d523f5a337a186e74f175
  decodeBase64 _ := none
  encodeBase64 _ := []
  inUnit d := 0 ≤ d && d ≤ 1

def profileRow (path mutation : String) (favorite : Bool)
    (version userOrder syncVersion : Int) : MoonlightRecord :=
  let tree : Json Int := .obj [
    (codes "_meta", encodedMeta {
      mutationId := codes mutation
      originId := codes "d1"
      baseSyncVersion := 1
      fieldVersions := [(codes path, version)] }),
    (codes "appId", .str (codes "1")), (codes "favorite", .bool favorite),
    (codes "hostId", .str (codes "h")), (codes "inputOverrides", .obj []),
    (codes "schemaVersion", .num 1), (codes "streamOverrides", .obj []),
    (codes "titleSnapshot", .str (codes "t")),
    (codes "userOrder", .num userOrder)]
  let row : MoonlightRecord := {
    id := codes "p"
    userId := codes "u"
    recordType := .profile
    ownerId := codes "h"
    ownerType := .host
    payload := tree.text
    syncVersion
    createdAt := 1
    updatedAt := 5 }
  { row with payloadHashSha256 :=
    moonlightRecordPayloadHashSha256 profilePlatform row }

def favoriteRow : MoonlightRecord :=
  profileRow "favorite" "m1" true 2 0 2

def orderRow : MoonlightRecord :=
  profileRow "userOrder" "m2" false 3 7 3

theorem favoriteRow_valid : Valid profilePlatform favoriteRow := by
  decide +kernel

theorem orderRow_valid : Valid profilePlatform orderRow := by
  decide +kernel

theorem moonlight_conflicts_converge_profile :
    Mirror
        (resolveMoonlightRecordConflict profilePlatform favoriteRow orderRow
          (some ⟨codes "m3", codes "d1", 9⟩))
        (resolveMoonlightRecordConflict profilePlatform orderRow favoriteRow
          (some ⟨codes "m3", codes "d1", 9⟩))
      ∧ (resolveMoonlightRecordConflict profilePlatform favoriteRow orderRow
          (some ⟨codes "m3", codes "d1", 9⟩)).action = .writeMerged :=
  ⟨(moonlight_conflicts_converge profilePlatform favoriteRow_valid
    orderRow_valid _).1, by decide +kernel⟩

end RemoteDesk.Moonlight
