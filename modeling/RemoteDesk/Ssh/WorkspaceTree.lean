/-
Pane trees of SSH workspaces.

A tree that validates has one form (`Shape`): splits with two sides, leaves
without any. Over it every operation is one on the list of leaves and on the
list of node ids, and the validator's walk is one statement
(`collect_iff`): no error is added exactly if the tree has that form, is not
too deep, and meets no id and no tab twice.
-/
import RemoteDesk.Ssh.Workspace

namespace RemoteDesk.Ssh.Workspace

open Lib

variable {D : Type}

namespace SshPaneNode

/-- Node ids, a node before its sides. -/
def ids : SshPaneNode D → List Text
  | null => []
  | node nodeId _ _ _ _ first second => nodeId :: (first.ids ++ second.ids)

/-- The leaves from left to right: id and tab. -/
def leaves : SshPaneNode D → List (Text × Text)
  | null => []
  | node nodeId kind tabId _ _ first second =>
    if kind = .leaf then [(nodeId, tabId)] else first.leaves ++ second.leaves

def shown (root : SshPaneNode D) : List Text := root.leaves.map Prod.snd

def height : SshPaneNode D → Nat
  | null => 0
  | node _ _ _ _ _ first second => max first.height second.height + 1

/-- A ratio that a split may have. -/
def RatioOk [JsDouble D] (ratio : D) : Prop :=
  JsDouble.isFinite ratio = true ∧ JsDouble.tenths 2 ≤ ratio
    ∧ ratio ≤ JsDouble.tenths 8

/-- The form of a tree whose leaves show tabs that there are. -/
inductive Shape [JsDouble D] (tabIds : List Text) :
    SshPaneNode D → Prop
  | leaf {nodeId tabId direction ratio} (hid : validId nodeId = true)
      (htab : tabId ∈ tabIds) :
      Shape tabIds (node nodeId .leaf tabId direction ratio null null)
  | split {nodeId tabId direction ratio first second}
      (hid : validId nodeId = true)
      (hdirection : direction = .horizontal ∨ direction = .vertical)
      (hratio : RatioOk ratio) (hfirst : Shape tabIds first)
      (hsecond : Shape tabIds second) :
      Shape tabIds (node nodeId .split tabId direction ratio first second)

section Equations

variable {nodeId tabId : Text} {direction : SshPaneDirection} {ratio : D}
  {first second : SshPaneNode D}

@[simp] theorem leaves_leaf :
    (node nodeId .leaf tabId direction ratio first second).leaves
      = [(nodeId, tabId)] := rfl

@[simp] theorem leaves_split :
    (node nodeId .split tabId direction ratio first second).leaves
      = first.leaves ++ second.leaves := rfl

@[simp] theorem shown_leaf :
    (node nodeId .leaf tabId direction ratio first second).shown
      = [tabId] := rfl

@[simp] theorem shown_split :
    (node nodeId .split tabId direction ratio first second).shown
      = first.shown ++ second.shown := List.map_append

end Equations

variable {tabIds : List Text} {root : SshPaneNode D}

-- ==================================== form

theorem isNull_iff : root.isNull = true ↔ root = null := by
  cases root with
  | null => exact iff_of_true rfl rfl
  | node => exact iff_of_false Bool.false_ne_true (fun h => (by cases h))

variable [JsDouble D]

theorem Shape.ne_null (h : Shape tabIds root) : root.isNull = false := by
  cases h with
  | leaf => rfl
  | split => rfl

theorem Shape.leaves_ne_nil (h : Shape tabIds root) : root.leaves ≠ [] := by
  induction h with
  | leaf => simp
  | split _ _ _ _ _ ih _ => simp [ih]

/-- A split has two leaves at least: no tree is higher than it is wide. -/
theorem Shape.height_le (h : Shape tabIds root) :
    root.height ≤ root.leaves.length := by
  induction h with
  | leaf => exact le_refl 1
  | split _ _ _ hfirst hsecond ih ih' =>
    have h1 := List.length_pos_of_ne_nil hfirst.leaves_ne_nil
    have h2 := List.length_pos_of_ne_nil hsecond.leaves_ne_nil
    rw [height, leaves_split, List.length_append]
    omega

theorem Shape.mono {tabIds' : List Text} (h : Shape tabIds root)
    (hsub : ∀ t ∈ root.shown, t ∈ tabIds') : Shape tabIds' root := by
  induction h with
  | leaf hid htab => exact .leaf hid (hsub _ (by simp))
  | split hid hdirection hratio _ _ ih ih' =>
    refine .split hid hdirection hratio (ih fun t ht => hsub t ?_)
      (ih' fun t ht => hsub t ?_)
    · simp [ht]
    · simp [ht]

theorem Shape.shown_mem (h : Shape tabIds root) {t : Text}
    (ht : t ∈ root.shown) : t ∈ tabIds := by
  induction h with
  | leaf _ htab =>
    rw [shown_leaf, List.mem_singleton] at ht
    rw [ht]
    exact htab
  | split _ _ _ _ _ ih ih' =>
    rw [shown_split, List.mem_append] at ht
    rcases ht with ht | ht
    · exact ih ht
    · exact ih' ht

/-- The leaves' ids stand among the nodes' in their order. -/
theorem Shape.leaves_sublist (h : Shape tabIds root) :
    (root.leaves.map Prod.fst).Sublist root.ids := by
  induction h with
  | leaf => exact List.Sublist.refl _
  | split _ _ _ _ _ ih ih' =>
    rw [leaves_split, List.map_append, ids]
    exact (ih.append ih').cons _

theorem Shape.valid_id (h : Shape tabIds root) {id : Text}
    (hid : id ∈ root.ids) : validId id = true := by
  induction h with
  | leaf hvalid _ =>
    obtain rfl : id = _ := List.mem_singleton.mp hid
    exact hvalid
  | split hvalid _ _ _ _ ih ih' =>
    rw [ids, List.mem_cons, List.mem_append] at hid
    rcases hid with rfl | hid | hid
    · exact hvalid
    · exact ih hid
    · exact ih' hid

-- ============================== validation

theorem collect_errors_prefix (tabIds : List Text) (root : SshPaneNode D)
    (depth : Nat) (v : PaneValidation) :
    v.errors <+: (collectPaneValidation tabIds root depth v).errors := by
  induction root generalizing depth v with
  | null => exact List.prefix_refl _
  | node nodeId kind tabId direction ratio first second ih ih' =>
    unfold collectPaneValidation
    have hfail : ∀ (w : PaneValidation) (error : String),
        w.errors <+: (w.fail error).errors :=
      fun w error => List.prefix_append _ _
    split
    · exact hfail v _
    split
    · exact hfail v _
    dsimp only
    split
    · split
      · exact hfail { v with paneIds := _ } _
      · exact List.prefix_refl _
    split
    · exact hfail { v with paneIds := _ } _
    · exact (ih (depth + 1)
        { v with paneIds := addId v.paneIds nodeId }).trans (ih' (depth + 1) _)

/-- What the walk asks of a tree, beside what was met before. -/
structure Collected (tabIds : List Text) (root : SshPaneNode D)
    (depth : Nat) (v : PaneValidation) : Prop where
  shape : Shape tabIds root
  height_le : depth + root.height ≤ SSH_WORKSPACE_MAX_PANE_DEPTH + 1
  ids_nodup : (v.paneIds ++ root.ids).Nodup
  shown_nodup : (v.visibleTabs ++ root.shown).Nodup

/-- What a walk without an error has met. -/
def collected (root : SshPaneNode D) (v : PaneValidation) : PaneValidation :=
  { v with
    paneIds := v.paneIds ++ root.ids
    visibleTabs := v.visibleTabs ++ root.shown }

theorem addId_of_notMem {ids : List Text} {id : Text} (h : id ∉ ids) :
    addId ids id = ids ++ [id] := if_neg h

/-- A tree that is as it should be is walked without an error. -/
theorem collect_of_collected {depth : Nat} {v : PaneValidation}
    (h : Collected tabIds root depth v) :
    collectPaneValidation tabIds root depth v = collected root v := by
  obtain ⟨hshape, hheight, hids, hshown⟩ := h
  induction hshape generalizing depth v with
  | @leaf nodeId tabId direction ratio hid htab =>
    have hdepth : ¬ depth > SSH_WORKSPACE_MAX_PANE_DEPTH := by
      rw [height] at hheight
      omega
    have hnew : nodeId ∉ v.paneIds := fun hmem =>
      (List.nodup_append.mp hids).2.2 _ hmem _ List.mem_cons_self rfl
    have hunseen : tabId ∉ v.visibleTabs := fun hmem =>
      (List.nodup_append.mp hshown).2.2 _ hmem _ List.mem_cons_self rfl
    unfold collectPaneValidation
    rw [if_neg hdepth, if_neg (by simp [hid, hnew])]
    dsimp only
    rw [if_pos rfl, if_neg (by simp [htab, hunseen, isNull]),
      addId_of_notMem hnew, addId_of_notMem hunseen]
    rfl
  | @split nodeId tabId direction ratio first second hid hdirection hratio
      hfirst hsecond ih ih' =>
      have hdepth : ¬ depth > SSH_WORKSPACE_MAX_PANE_DEPTH := by
        rw [height] at hheight
        omega
      have hnew : nodeId ∉ v.paneIds := fun hmem =>
        (List.nodup_append.mp hids).2.2 _ hmem _ List.mem_cons_self rfl
      have hsplit : ¬ (SshPaneKind.split ≠ .split ∨ first.isNull = true
          ∨ second.isNull = true
          ∨ (direction ≠ .horizontal ∧ direction ≠ .vertical)
          ∨ (!JsDouble.isFinite ratio) = true ∨ ratio < JsDouble.tenths 2
          ∨ JsDouble.tenths 8 < ratio) := by
        rw [hfirst.ne_null, hsecond.ne_null, hratio.1]
        have h2 := not_lt.mpr hratio.2.1
        have h8 := not_lt.mpr hratio.2.2
        simp only [h2, h8]
        rcases hdirection with h | h
        · simp [h]
        · simp [h]
      rw [ids, List.append_cons, ← List.append_assoc] at hids
      rw [shown_split, ← List.append_assoc] at hshown
      rw [height] at hheight
      unfold collectPaneValidation
      rw [if_neg hdepth, if_neg (by simp [hid, hnew])]
      dsimp only
      have hone := @ih (depth + 1) { v with paneIds := v.paneIds ++ [nodeId] }
        (by omega) (List.nodup_append.mp hids).1 (List.nodup_append.mp hshown).1
      have htwo := @ih' (depth + 1)
        (collected first { v with paneIds := v.paneIds ++ [nodeId] })
        (by omega) hids hshown
      rw [if_neg (by simp), if_neg hsplit, addId_of_notMem hnew, hone, htwo]
      unfold collected
      rw [ids, shown_split, List.append_cons]
      simp only [List.append_assoc]
      rfl

/-- A walk that adds no error has walked a tree as it should be. -/
theorem collected_of_errors {depth : Nat} {v : PaneValidation}
    (hne : root.isNull = false) (hids : v.paneIds.Nodup)
    (hshown : v.visibleTabs.Nodup)
    (h : (collectPaneValidation tabIds root depth v).errors = v.errors) :
    Collected tabIds root depth v := by
  induction root generalizing depth v with
  | null => cases hne
  | node nodeId kind tabId direction ratio first second ih ih' =>
    have hfail : ∀ (w : PaneValidation) (error : String),
        w.errors = v.errors → (w.fail error).errors ≠ v.errors := by
      intro w error hw heq
      have hlen := congrArg List.length heq
      rw [PaneValidation.fail, hw, List.length_append] at hlen
      simp at hlen
    unfold collectPaneValidation at h
    split at h
    · exact absurd h (hfail v _ rfl)
    rename_i hdepth
    split at h
    · exact absurd h (hfail v _ rfl)
    rename_i hid
    rw [Bool.or_eq_true, not_or] at hid
    obtain ⟨hvalid, hnew⟩ := hid
    have hvalid : validId nodeId = true := by simpa using hvalid
    have hnew : nodeId ∉ v.paneIds := by simpa using hnew
    have hids' : (v.paneIds ++ [nodeId]).Nodup :=
      List.nodup_append.mpr ⟨hids, List.nodup_singleton _,
        fun a ha b hb hab => hnew (by
          rw [List.mem_singleton] at hb
          exact hb ▸ hab ▸ ha)⟩
    rw [addId_of_notMem hnew] at h
    dsimp only at h
    split at h
    · rename_i hkind
      split at h
      · exact absurd h (hfail { v with paneIds := _ } _ rfl)
      rename_i hleaf
      simp only [not_or, not_not, Bool.not_eq_true, Bool.not_eq_false',
        isNull_iff] at hleaf
      obtain ⟨htab, hunseen, hfirst, hsecond⟩ := hleaf
      rw [hkind, hfirst, hsecond]
      refine ⟨.leaf hvalid htab, ?_, hids', ?_⟩
      · show depth + 1 ≤ _
        omega
      · refine List.nodup_append.mpr ⟨hshown, List.nodup_singleton _,
          fun a ha b hb hab => hunseen ?_⟩
        rw [shown_leaf, List.mem_singleton] at hb
        exact hb ▸ hab ▸ ha
    rename_i hkind
    split at h
    · exact absurd h (hfail { v with paneIds := _ } _ rfl)
    rename_i hsplit
    simp only [not_or, not_not, Bool.not_eq_true, not_and_or,
      Bool.not_eq_false', not_lt] at hsplit
    obtain ⟨hsplit, hfirst, hsecond, hdirection, hfinite, h2, h8⟩ := hsplit
    have hbetween := collect_errors_prefix tabIds second (depth + 1)
      (collectPaneValidation tabIds first (depth + 1)
        { v with paneIds := v.paneIds ++ [nodeId] })
    have hbefore := collect_errors_prefix tabIds first (depth + 1)
      { v with paneIds := v.paneIds ++ [nodeId] }
    rw [h] at hbetween
    have hfirstErrors := List.IsPrefix.eq_of_length_le hbetween
      hbefore.length_le
    have hone := @ih (depth + 1)
      { v with paneIds := v.paneIds ++ [nodeId] } hfirst hids' hshown
      hfirstErrors
    rw [collect_of_collected hone] at h
    have htwo := ih' hsecond hone.ids_nodup hone.shown_nodup h
    rw [hsplit]
    refine ⟨.split hvalid hdirection ⟨hfinite, h2, h8⟩ hone.shape htwo.shape,
      ?_, ?_, ?_⟩
    · have h1 := hone.height_le
      have h2 := htwo.height_le
      rw [height]
      omega
    · have hnodup := htwo.ids_nodup
      simpa [collected, ids] using hnodup
    · have hnodup := htwo.shown_nodup
      simpa [collected] using hnodup

-- ================================= look-up

omit [JsDouble D] in
theorem paneById_isNull {paneId : Text} :
    (root.paneById paneId).isNull = true ↔ paneId ∉ root.ids := by
  induction root with
  | null => exact iff_of_true rfl List.not_mem_nil
  | node nodeId kind tabId direction ratio first second ih ih' =>
    rw [paneById, ids, List.mem_cons, List.mem_append, not_or, not_or]
    by_cases hid : nodeId = paneId
    · rw [if_pos hid]
      exact iff_of_false Bool.false_ne_true fun h => h.1 hid.symm
    · rw [if_neg hid, ← ih, ← ih']
      split
      · rename_i hnull
        rw [hnull]
        exact ⟨fun h => ⟨Ne.symm hid, rfl, h⟩, fun h => h.2.2⟩
      · rename_i hne
        exact iff_of_false (fun h => hne (isNull_iff.mp h))
          fun h => hne (isNull_iff.mp h.2.1)

/-- With no id twice, a leaf is found by its id. -/
theorem Shape.leafById_iff (h : Shape tabIds root) (hids : root.ids.Nodup)
    {paneId tabId : Text} :
    root.leafById paneId = some tabId ↔ (paneId, tabId) ∈ root.leaves := by
  unfold leafById
  induction h with
  | @leaf nodeId ownTab direction ratio hid _ =>
    rw [paneById]
    by_cases hp : nodeId = paneId
    · rw [if_pos hp, leaves_leaf, List.mem_singleton, leafTab, hp,
        Prod.mk.injEq, Option.some.injEq]
      exact ⟨fun h => ⟨rfl, h.symm⟩, fun h => h.2.symm⟩
    · rw [if_neg hp, leaves_leaf, List.mem_singleton, Prod.mk.injEq]
      exact iff_of_false (fun h => (by cases h)) fun h => hp h.1.symm
  | @split nodeId ownTab direction ratio first second _ _ _ hfirst hsecond
      ih ih' =>
      rw [ids, List.nodup_cons, List.nodup_append] at hids
      obtain ⟨hnode, hone, htwo, hapart⟩ := hids
      rw [leaves_split, List.mem_append, ← ih hone, ← ih' htwo, paneById]
      have hmem : ∀ {r : SshPaneNode D}, Shape tabIds r → r.ids.Nodup →
          (r.paneById paneId).isNull = true →
          (r.paneById paneId).leafTab ≠ some tabId := by
        intro r _ _ hnull
        rw [isNull_iff.mp hnull]
        exact fun h => (by cases h)
      by_cases hp : nodeId = paneId
      · have h1 : paneId ∉ first.ids := fun h =>
          hnode (List.mem_append_left _ (hp ▸ h))
        have h2 : paneId ∉ second.ids := fun h =>
          hnode (List.mem_append_right _ (hp ▸ h))
        rw [if_pos hp]
        refine iff_of_false (fun h => (by cases h)) ?_
        rintro (h | h)
        · exact hmem hfirst hone (paneById_isNull.mpr h1) h
        · exact hmem hsecond htwo (paneById_isNull.mpr h2) h
      · rw [if_neg hp]
        split
        · rename_i hnull
          rw [hnull]
          exact ⟨.inr, fun h => h.resolve_left fun h => (by cases h)⟩
        · rename_i hne
          have hin : paneId ∈ first.ids := by
            by_contra hout
            exact hne (isNull_iff.mp (paneById_isNull.mpr hout))
          have hout : paneId ∉ second.ids := fun h =>
            hapart _ hin _ h rfl
          exact ⟨.inl, fun h => h.resolve_right
            (hmem hsecond htwo (paneById_isNull.mpr hout))⟩

theorem Shape.paneContainsTab_iff (h : Shape tabIds root) {tabId : Text} :
    root.paneContainsTab tabId = true ↔ tabId ∈ root.shown := by
  induction h with
  | leaf => simp [paneContainsTab, eq_comm]
  | split _ _ _ _ _ ih ih' => simp [paneContainsTab, ih, ih']

theorem Shape.visiblePaneCount_eq (h : Shape tabIds root) :
    root.visiblePaneCount = root.leaves.length := by
  induction h with
  | leaf => rfl
  | split _ _ _ _ _ ih ih' => simp [visiblePaneCount, ih, ih']

theorem Shape.firstLeaf_eq (h : Shape tabIds root) :
    root.firstLeaf = root.leaves.head? := by
  induction h with
  | leaf => rfl
  | split _ _ _ hfirst _ ih ih' =>
    obtain ⟨p, l, hl⟩ := List.exists_cons_of_ne_nil hfirst.leaves_ne_nil
    rw [firstLeaf, if_neg (by simp), ih, leaves_split, hl]
    rfl

/-- The first leaf that shows a tab; node ids are never empty. -/
theorem Shape.findSource_eq (h : Shape tabIds root) (tabId : Text)
    {source : Text} : root.findSource tabId source
      = if source ≠ [] then source
        else ((root.leaves.find? fun p => p.2 = tabId).map Prod.fst).getD [] := by
  induction h generalizing source with
  | @leaf nodeId ownTab direction ratio hid _ =>
    rw [findSource]
    split
    · rfl
    · rename_i hsource
      by_cases htab : ownTab = tabId
      · simp [htab]
      · simp [htab, findSource, not_not.mp hsource]
  | @split _ _ _ _ first second _ _ _ hfirst _ ih ih' =>
    rw [findSource]
    split
    · rfl
    · rename_i hsource
      rw [if_neg (by simp), ih', ih, if_neg hsource, leaves_split,
        List.find?_append]
      cases hfind : first.leaves.find? (fun p => p.2 = tabId) with
      | none => simp
      | some p =>
        have hp : p.1 ≠ [] := by
          have hmem := List.mem_of_find?_eq_some hfind
          have hid := hfirst.valid_id (hfirst.leaves_sublist.subset
            (List.mem_map_of_mem hmem))
          intro hnil
          rw [hnil] at hid
          cases hid
        simp [hp]

-- =================================== edits

omit [JsDouble D] in
@[simp] theorem ids_replaceLeafTab (paneId newTab : Text) :
    (root.replaceLeafTab paneId newTab).ids = root.ids := by
  induction root with
  | null => rfl
  | node nodeId kind tabId direction ratio first second ih ih' =>
    rw [replaceLeafTab]
    split
    · rfl
    · rw [ids, ih, ih']
      rfl

omit [JsDouble D] in
theorem leaves_replaceLeafTab (paneId newTab : Text) :
    (root.replaceLeafTab paneId newTab).leaves = root.leaves.map fun p =>
      (p.1, if p.1 = paneId then newTab else p.2) := by
  induction root with
  | null => rfl
  | node nodeId kind tabId direction ratio first second ih ih' =>
    rw [replaceLeafTab]
    split
    · rename_i hkind
      rw [hkind]
      rfl
    · rename_i hkind
      rw [leaves, if_neg hkind, leaves, if_neg hkind, ih, ih',
        List.map_append]

theorem Shape.replaceLeafTab (h : Shape tabIds root) {paneId newTab : Text}
    (htab : newTab ∈ tabIds) :
    Shape tabIds (root.replaceLeafTab paneId newTab) := by
  induction h with
  | leaf hid hown =>
    refine .leaf hid ?_
    split
    · exact htab
    · exact hown
  | split hid hdirection hratio _ _ ih ih' =>
    exact .split hid hdirection hratio ih ih'

/-- A tree of which leaves were taken out: nothing, or a tree of the rest. -/
theorem Shape.removeLeaves (h : Shape tabIds root)
    (drop : Text → Text → Bool) :
    (root.removeLeaves drop).leaves
        = root.leaves.filter (fun p => !drop p.1 p.2)
      ∧ (root.removeLeaves drop).ids.Sublist root.ids
      ∧ ((root.removeLeaves drop).isNull = false →
        Shape tabIds (root.removeLeaves drop)) := by
  induction h with
  | @leaf nodeId ownTab direction ratio hid htab =>
    by_cases hdrop : drop nodeId ownTab = true
    · have hremoved : SshPaneNode.removeLeaves drop
          (node nodeId .leaf ownTab direction ratio null null) = null := by
        simp [SshPaneNode.removeLeaves, hdrop]
      rw [hremoved]
      exact ⟨by simp [hdrop, leaves], List.nil_sublist _, fun h => (by cases h)⟩
    · have hremoved : SshPaneNode.removeLeaves drop
          (node nodeId .leaf ownTab direction ratio null null)
            = node nodeId .leaf ownTab direction ratio null null := by
        simp [SshPaneNode.removeLeaves, hdrop]
      rw [hremoved]
      exact ⟨by simp [hdrop], List.Sublist.refl _, fun _ => .leaf hid htab⟩
  | @split nodeId ownTab direction ratio first second hid hdirection hratio _ _
      ih ih' =>
      obtain ⟨hleaves, hids, hshape⟩ := ih
      obtain ⟨hleaves', hids', hshape'⟩ := ih'
      rw [SshPaneNode.removeLeaves, if_neg (by simp), leaves_split,
        List.filter_append, ← hleaves, ← hleaves']
      dsimp only
      by_cases hone : (first.removeLeaves drop).isNull = true
      · rw [if_pos hone, isNull_iff.mp hone]
        refine ⟨rfl, ?_, hshape'⟩
        exact hids'.trans ((List.sublist_append_right _ _).cons _)
      · rw [if_neg hone]
        by_cases htwo : (second.removeLeaves drop).isNull = true
        · rw [if_pos htwo, isNull_iff.mp htwo]
          refine ⟨(List.append_nil _).symm, ?_, hshape⟩
          exact hids.trans ((List.sublist_append_left _ _).cons _)
        · rw [if_neg htwo]
          refine ⟨leaves_split, ?_, fun _ => .split hid hdirection hratio
            (hshape (by simpa using hone)) (hshape' (by simpa using htwo))⟩
          exact (hids.append hids').cons_cons _

theorem Shape.updateSplitRatio (h : Shape tabIds root) {paneId : Text}
    {newRatio : D} (hratio : RatioOk newRatio) :
    Shape tabIds (root.updateSplitRatio paneId newRatio)
      ∧ (root.updateSplitRatio paneId newRatio).ids = root.ids
      ∧ (root.updateSplitRatio paneId newRatio).leaves = root.leaves := by
  induction h with
  | leaf hid htab =>
    rw [SshPaneNode.updateSplitRatio, if_neg (by simp)]
    exact ⟨.leaf hid htab, rfl, rfl⟩
  | split hid hdirection hown hfirst hsecond ih ih' =>
    obtain ⟨hshape, hids, hleaves⟩ := ih
    obtain ⟨hshape', hids', hleaves'⟩ := ih'
    rw [SshPaneNode.updateSplitRatio]
    split
    · exact ⟨.split hid hdirection hratio hfirst hsecond, rfl, rfl⟩
    · refine ⟨.split hid hdirection hown hshape hshape', ?_, ?_⟩
      · rw [ids, hids, hids']
        rfl
      · rw [leaves_split, hleaves, hleaves']
        rfl

section Split

variable {paneId splitNodeId newLeafId newTab : Text}
  {newDirection : SshPaneDirection} {newRatio : D}

theorem Shape.replaceLeafWithSplit (h : Shape tabIds root)
    (hsplit : validId splitNodeId = true) (hleaf : validId newLeafId = true)
    (htab : newTab ∈ tabIds)
    (hnew : newDirection = .horizontal ∨ newDirection = .vertical)
    (hratio : RatioOk newRatio) :
    Shape tabIds (root.replaceLeafWithSplit paneId splitNodeId newLeafId newTab
      newDirection newRatio) := by
  induction h with
  | leaf hid hown =>
    rw [SshPaneNode.replaceLeafWithSplit, if_pos rfl]
    dsimp only
    split
    · exact .leaf hid hown
    · exact .split hsplit hnew hratio (.leaf hid hown) (.leaf hleaf htab)
  | split hid hdirection hown _ _ ih ih' =>
    exact .split hid hdirection hown ih ih'

/-- A leaf that is split stays, and the new one comes beside it. -/
theorem Shape.replaceLeafWithSplit_perm (h : Shape tabIds root) :
    (root.replaceLeafWithSplit paneId splitNodeId newLeafId newTab
        newDirection newRatio).leaves.Perm
      (root.leaves ++ (root.leaves.filter fun p => p.1 = paneId).map
        fun _ => (newLeafId, newTab))
      ∧ (root.replaceLeafWithSplit paneId splitNodeId newLeafId newTab
        newDirection newRatio).ids.Perm
      (root.ids ++ (root.leaves.filter fun p => p.1 = paneId).flatMap
        fun _ => [splitNodeId, newLeafId]) := by
  induction h with
  | @leaf nodeId ownTab _ _ _ _ =>
    rw [SshPaneNode.replaceLeafWithSplit, if_pos rfl]
    dsimp only
    by_cases hp : nodeId = paneId
    · rw [if_neg (not_not.mpr hp)]
      refine ⟨?_, ?_⟩
      · simp [hp, newLeaf]
      · simp only [ids, newLeaf, leaves_leaf, hp, decide_true,
          List.filter_cons_of_pos, List.filter_nil, List.flatMap_cons,
          List.flatMap_nil, List.append_nil, List.nil_append,
          List.cons_append]
        exact List.Perm.swap _ _ _
    · rw [if_pos hp]
      simp [hp]
  | split _ _ _ _ _ ih ih' =>
    obtain ⟨hleaves, hids⟩ := ih
    obtain ⟨hleaves', hids'⟩ := ih'
    rw [SshPaneNode.replaceLeafWithSplit, if_neg (by simp), leaves_split,
      leaves_split, List.filter_append, List.map_append, List.flatMap_append]
    refine ⟨(hleaves.append hleaves').trans ?_,
      ((hids.append hids').cons _).trans ?_⟩
    · rw [List.perm_iff_count]
      intro p
      simp only [List.count_append]
      omega
    · rw [List.perm_iff_count]
      intro id
      simp only [ids, List.count_append, List.count_cons]
      omega

end Split

-- ======================== tabs shown twice

theorem filter_key {l : List (Text × Text)} (hkeys : (l.map Prod.fst).Nodup)
    {p : Text × Text} (hp : p ∈ l) :
    l.filter (fun q => q.1 = p.1) = [p] := by
  induction l with
  | nil => cases hp
  | cons q l ih =>
    obtain ⟨hq, hkeys⟩ := List.nodup_cons.mp hkeys
    rcases List.mem_cons.mp hp with rfl | hp
    · rw [List.filter_cons_of_pos (by simp), List.filter_eq_nil_iff.mpr]
      intro r hr heq
      exact hq (List.mem_map.mpr ⟨r, hr, of_decide_eq_true heq⟩)
    · have hne : q.1 ≠ p.1 := fun heq =>
        hq (heq ▸ List.mem_map_of_mem hp)
      rw [List.filter_cons_of_neg (by simpa using hne), ih hkeys hp]

/-- A tab put to a pane is shown once exactly if no other pane shows it. -/
theorem nodup_replaced {l : List (Text × Text)}
    (hkeys : (l.map Prod.fst).Nodup) (htabs : (l.map Prod.snd).Nodup)
    {paneId newTab : Text} (hpane : paneId ∈ l.map Prod.fst) :
    ((l.map fun p => (p.1, if p.1 = paneId then newTab else p.2)).map
      Prod.snd).Nodup ↔ ∀ p ∈ l, p.2 = newTab → p.1 = paneId := by
  rw [List.map_map]
  obtain ⟨q, hq, rfl⟩ := List.mem_map.mp hpane
  constructor
  · intro hnodup p hp htab
    by_contra hne
    have heq := List.inj_on_of_nodup_map hnodup hp hq (by simp [hne, htab])
    exact hne (congrArg Prod.fst heq)
  · intro honly
    refine List.Nodup.map_on ?_ hkeys.of_map
    intro x hx y hy heq
    simp only [Function.comp] at heq
    by_cases hxq : x.1 = q.1
    · by_cases hyq : y.1 = q.1
      · exact List.inj_on_of_nodup_map hkeys hx hy (hxq.trans hyq.symm)
      · rw [if_pos hxq, if_neg hyq] at heq
        exact absurd (honly y hy heq.symm) hyq
    · by_cases hyq : y.1 = q.1
      · rw [if_neg hxq, if_pos hyq] at heq
        exact absurd (honly x hx heq) hxq
      · rw [if_neg hxq, if_neg hyq] at heq
        exact List.inj_on_of_nodup_map htabs hx hy heq

/-- Two panes that change their tabs show no tab twice. -/
theorem nodup_swapped {l : List (Text × Text)}
    (hkeys : (l.map Prod.fst).Nodup) (htabs : (l.map Prod.snd).Nodup)
    {target source : Text × Text} (htarget : target ∈ l) (hsource : source ∈ l)
    (hne : source.1 ≠ target.1) :
    ((l.map fun p => (p.1, if p.1 = source.1 then target.2
      else if p.1 = target.1 then source.2 else p.2)).map
        Prod.snd).Nodup := by
  rw [List.map_map]
  have hkey : ∀ {x y}, x ∈ l → y ∈ l → x.1 = y.1 → x = y :=
    fun hx hy => List.inj_on_of_nodup_map hkeys hx hy
  have htab : ∀ {x y}, x ∈ l → y ∈ l → x.2 = y.2 → x = y :=
    fun hx hy => List.inj_on_of_nodup_map htabs hx hy
  -- what a pane shows afterwards was shown by exactly one pane before
  have howner : ∀ x ∈ l, ∃ z ∈ l, (if x.1 = source.1 then target.2
      else if x.1 = target.1 then source.2 else x.2) = z.2
      ∧ (x.1 = source.1 ∧ z = target ∨ x.1 = target.1 ∧ z = source
        ∨ x.1 ≠ source.1 ∧ x.1 ≠ target.1 ∧ z = x) := by
    intro x hx
    by_cases h1 : x.1 = source.1
    · exact ⟨target, htarget, if_pos h1, .inl ⟨h1, rfl⟩⟩
    · by_cases h2 : x.1 = target.1
      · exact ⟨source, hsource, by rw [if_neg h1, if_pos h2],
          .inr (.inl ⟨h2, rfl⟩)⟩
      · exact ⟨x, hx, by rw [if_neg h1, if_neg h2],
          .inr (.inr ⟨h1, h2, rfl⟩)⟩
  refine List.Nodup.map_on ?_ hkeys.of_map
  intro x hx y hy heq
  obtain ⟨z, hz, hxz, hxcase⟩ := howner x hx
  obtain ⟨w, hw, hyw, hycase⟩ := howner y hy
  have hzw : z = w := htab hz hw (by
    rw [← hxz, ← hyw]
    exact heq)
  apply hkey hx hy
  rcases hxcase with ⟨h1, rfl⟩ | ⟨h1, rfl⟩ | ⟨h1, h2, rfl⟩
  · rcases hycase with ⟨h3, -⟩ | ⟨-, h4⟩ | ⟨-, h4, h5⟩
    · exact h1.trans h3.symm
    · exact absurd (congrArg Prod.fst (h4.symm.trans hzw.symm)) hne
    · exact absurd (congrArg Prod.fst (h5.symm.trans hzw.symm)) h4
  · rcases hycase with ⟨-, h4⟩ | ⟨h3, -⟩ | ⟨h4, -, h5⟩
    · exact absurd (congrArg Prod.fst (hzw.trans h4)) hne
    · exact h1.trans h3.symm
    · exact absurd (congrArg Prod.fst (h5.symm.trans hzw.symm)) h4
  · rcases hycase with ⟨-, h4⟩ | ⟨-, h4⟩ | ⟨-, -, h5⟩
    · exact absurd (congrArg Prod.fst (hzw.trans h4)) h2
    · exact absurd (congrArg Prod.fst (hzw.trans h4)) h1
    · rw [hzw, h5]

end SshPaneNode

end RemoteDesk.Ssh.Workspace
