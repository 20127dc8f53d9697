/-
What comes back of stored SSH workspaces.

A tidy and valid snapshot is read as it was written, its texts normalised
once more (`decodeItem_json`); what is read of any text is tidy and valid
(`decodeItem_spec`). So a list comes back as it was exactly if every
snapshot of it is valid, which leaves out the ones with a tab in two panes,
and no text of it was cut behind white space (`workspaces_come_back`).
-/
import RemoteDesk.Ssh.WorkspaceCodec

namespace RemoteDesk.Ssh.Workspace

open Lib SshPaneNode

variable {D : Type}

-- =================================== texts

/-- Where the text is cut there is no white space. -/
def Whole (value : Text) (maxLength : Nat) : Prop :=
  ∀ u ∈ (normalizedText value maxLength).getLast?, Sftp.isSpace u = false

theorem length_normalizedText (value : Text) (n : Nat) :
    (normalizedText value n).length ≤ n := List.length_take_le n _

theorem head_normalizedText (value : Text) (n : Nat) :
    ∀ u ∈ (normalizedText value n).head?, Sftp.isSpace u = false := by
  intro u hu
  unfold normalizedText at hu
  cases n with
  | zero => cases hu
  | succ n =>
    rw [List.head?_take, if_neg (Nat.succ_ne_zero n)] at hu
    exact head_trimBy Sftp.isSpace u hu

theorem normalizedText_again {value : Text} {n : Nat} :
    normalizedText (normalizedText value n) n = normalizedText value n ↔
      Whole value n := by
  have hshort : (Sftp.trim (normalizedText value n)).length ≤ n := by
    have hfirst := ( trimBy_prefix Sftp.isSpace
      (normalizedText value n)).length_le
    have hdrop := (List.dropWhile_sublist Sftp.isSpace
      (l := normalizedText value n)).length_le
    exact (hfirst.trans hdrop).trans (length_normalizedText value n)
  have hagain : normalizedText (normalizedText value n) n
      = Sftp.trim (normalizedText value n) := List.take_of_length_le hshort
  rw [hagain, Sftp.trim, trimBy_eq_self_iff]
  exact ⟨fun h => h.2, fun h => ⟨head_normalizedText value n, h⟩⟩

-- ==================================== tabs

/-- A tab as it is read back. -/
def settleTab (t : SshWorkspaceTab) : SshWorkspaceTab :=
  { t with
    titleOverride := normalizedText t.titleOverride 160
    profileId := normalizedText t.profileId 96 }

theorem nodup_tabKeys (t : SshWorkspaceTab) :
    (Members.keys (t.members : List (Text × Json D))).Nodup := by
  show [codes "tabId", codes "kind", codes "hostId", codes "titleOverride",
    codes "profileId", codes "pinned"].Nodup
  decide

theorem normalizedTab_sorted (t : SshWorkspaceTab) :
    normalizedTab (t.json : Json D).sorted = normalizedTab (t.json : Json D) := by
  have hmember : ∀ (key : String) {v : Json D},
      Members.lookup (codes key) t.members = some v → v.sorted = v →
        member key (t.json : Json D).sorted = member key t.json := by
    intro key v hv hsorted
    rw [SshWorkspaceTab.json, member_sorted (nodup_tabKeys t) hv, hsorted]
    exact hv.symm
  unfold normalizedTab
  rw [hmember "tabId" rfl rfl, hmember "hostId" rfl rfl,
    hmember "kind" rfl rfl, hmember "titleOverride" rfl rfl,
    hmember "profileId" rfl rfl, hmember "pinned" rfl rfl]

variable {t : SshWorkspaceTab} {key : String}

theorem normalizedTab_tidy (h : Normalizes t)
    (htidy : TidyTab t) : normalizedTab (t.json : Json D) = some (settleTab t) := by
  obtain ⟨tabId, kind, hostId, title, profile, pinned⟩ := t
  obtain ⟨hid, hhost, -⟩ := h
  obtain ⟨hid', hhost', hkind⟩ := htidy
  rw [normalizedTab_json, if_neg (by simp [hid, hhost]), hid', hhost']
  rcases hkind with hkind | hkind
  · obtain rfl : kind = .terminal := hkind
    rfl
  · obtain rfl : kind = .sftp := hkind
    rfl

theorem decodeTabs_json {tabs : List SshWorkspaceTab}
    {before : List SshWorkspaceTab} (hnormal : ∀ t ∈ tabs, Normalizes t)
    (htidy : ∀ t ∈ tabs, TidyTab t)
    (hids : (before.map SshWorkspaceTab.tabId
      ++ tabs.map SshWorkspaceTab.tabId).Nodup)
    (hfew : before.length + tabs.length ≤ SSH_WORKSPACE_MAX_TABS) :
    decodeTabs (tabs.map fun t => (t.json : Json D).sorted) before
      = before ++ tabs.map settleTab := by
  induction tabs generalizing before with
  | nil => exact (List.append_nil before).symm
  | cons t tabs ih =>
    obtain ⟨ht, hnormal⟩ := List.forall_mem_cons.mp hnormal
    obtain ⟨ht', htidy⟩ := List.forall_mem_cons.mp htidy
    have hnew : (settleTab t).tabId ∉ before.map SshWorkspaceTab.tabId :=
      fun hmem => (List.nodup_append.mp hids).2.2 _ hmem _
        List.mem_cons_self rfl
    rw [List.length_cons] at hfew
    rw [List.map_cons, decodeTabs, if_neg (by omega), normalizedTab_sorted,
      normalizedTab_tidy ht ht']
    dsimp only
    rw [if_neg hnew, ih hnormal htidy]
    · rw [List.map_cons, List.append_assoc]
      rfl
    · rw [List.map_append, List.append_assoc]
      exact hids
    · rw [List.length_append]
      show before.length + 1 + tabs.length ≤ _
      omega

/-- An order that lists the tabs, each once, is read as it is. -/
theorem decodeOrder_json {tabIds order : List Text} (hnodup : order.Nodup)
    (hmem : ∀ id, id ∈ order ↔ id ∈ tabIds)
    (hnormal : ∀ id ∈ order, normalizedText id 96 = id) :
    decodeOrder tabIds (order.map fun id => (Json.str id : Json D))
      = order := by
  have hlisted : ∀ (rest before : List Text), (before ++ rest).Nodup →
      (∀ id ∈ rest, id ∈ tabIds ∧ normalizedText id 96 = id) →
      (rest.map fun id => (Json.str id : Json D)).foldl (fun order raw =>
        if orderId raw ∈ tabIds ∧ orderId raw ∉ order then
          order ++ [orderId raw]
        else order) before = before ++ rest := by
    intro rest
    induction rest with
    | nil => exact fun before _ _ => (List.append_nil before).symm
    | cons id rest ih =>
      intro before hnodup hall
      obtain ⟨⟨hin, hid⟩, hall⟩ := List.forall_mem_cons.mp hall
      have hnew : id ∉ before := fun hmem =>
        (List.nodup_append.mp hnodup).2.2 _ hmem _ List.mem_cons_self rfl
      have hread : orderId (Json.str id : Json D) = id := hid
      rw [List.map_cons, List.foldl_cons, hread, if_pos ⟨hin, hnew⟩,
        ih (before ++ [id]), List.append_assoc]
      · rfl
      · rw [List.append_assoc]
        exact hnodup
      · exact hall
  have hadded : ∀ ids : List Text, (∀ id ∈ ids, id ∈ order) →
      ids.foldl addId order = order := by
    intro ids hids
    induction ids with
    | nil => rfl
    | cons id ids ih =>
      obtain ⟨hid, hids⟩ := List.forall_mem_cons.mp hids
      rw [List.foldl_cons, addId, if_pos hid]
      exact ih hids
  unfold decodeOrder
  rw [hlisted order [] hnodup fun id hid => ⟨(hmem id).mp hid, hnormal id hid⟩]
  exact hadded tabIds fun id hid => (hmem id).mpr hid

-- =================================== panes

section Panes

variable [JsDouble D]

theorem clampRatio_of_ok {ratio : D} (h : RatioOk ratio) :
    clampRatio ratio = ratio := by
  rw [clampRatio, min_eq_right h.2.2, max_eq_right h.2.1]

variable {nodeId tabId : Text} {kind : SshPaneKind}
  {direction : SshPaneDirection} {ratio : D} {first second : SshPaneNode D}

theorem member_pane {v : Json D} (h : Members.lookup (codes key)
      [(codes "nodeId", .str nodeId), (codes "kind", .str kind.name),
        (codes "tabId", .str tabId), (codes "direction", .str direction.name),
        (codes "ratio", numberJson ratio), (codes "first", first.json),
        (codes "second", second.json)] = some v) :
    (some (node nodeId kind tabId direction ratio first second).json.sorted).bind
      (member key) = some v.sorted := by
  refine member_sorted ?_ h
  show [codes "nodeId", codes "kind", codes "tabId", codes "direction",
    codes "ratio", codes "first", codes "second"].Nodup
  decide

theorem isJsonNull_json (h : first.isNull = false) :
    isJsonNull (some first.json.sorted) = false := by
  cases first with
  | null => cases h
  | node => rfl

theorem decodeRatio_json (h : JsDouble.isFinite ratio = true) :
    decodeRatio (some (numberJson ratio).sorted) = some ratio := by
  rw [numberJson_finite h]
  exact if_pos h

/-- A tree as it should be is read as it is; its ids and tabs are used up. -/
theorem decodePane_json {tabIds : List Text} {root : SshPaneNode D}
    (hshape : Shape tabIds root) (htidy : TidyTree root)
    (hnormal : ∀ t ∈ tabIds, normalizedText t 96 = t) {levels : Nat}
    (hlevels : root.height ≤ levels) {usedPaneIds usedTabIds : List Text}
    (hids : (usedPaneIds ++ root.ids).Nodup)
    (hshown : (usedTabIds ++ root.shown).Nodup) :
    decodePane tabIds levels (some root.json.sorted) usedPaneIds usedTabIds
      = ⟨root, usedPaneIds ++ root.ids, usedTabIds ++ root.shown⟩ := by
  induction hshape generalizing levels usedPaneIds usedTabIds with
  | @leaf nodeId tabId direction ratio hid htab =>
    obtain ⟨⟨hdirection, hratio, -, -⟩, -, -⟩ := htidy
    obtain ⟨levels, rfl⟩ := Nat.exists_eq_succ_of_ne_zero
      (Nat.one_le_iff_ne_zero.mp hlevels)
    have hid' := normalizedText_validId hid (validId_iff.mp hid).2.1
    have hnew : nodeId ∉ usedPaneIds := fun hmem =>
      (List.nodup_append.mp hids).2.2 _ hmem _ List.mem_cons_self rfl
    have hunseen : tabId ∉ usedTabIds := fun hmem =>
      (List.nodup_append.mp hshown).2.2 _ hmem _ List.mem_cons_self rfl
    have hread : ¬ ((!validId (normalizedText nodeId 96)
        || decide (normalizedText nodeId 96 ∈ usedPaneIds)) = true) := by
      simp [hid', hid, hnew]
    have hopen : ¬ (normalizedText tabId 96 ∉ tabIds
        ∨ normalizedText tabId 96 ∈ usedTabIds) := by
      simp [hnormal tabId htab, htab, hunseen]
    unfold decodePane
    dsimp only
    rw [member_pane rfl, member_pane rfl]
    show (if _ then _ else if _ then _ else _) = _
    have hleaf : SshPaneKind.leaf.name = codes "leaf" := rfl
    rw [if_neg hread, if_pos hleaf, member_pane rfl]
    show (if _ then _ else _) = _
    rw [if_neg hopen, hid', hnormal tabId htab, addId_of_notMem hnew,
      addId_of_notMem hunseen, hdirection, hratio]
    rfl
  | @split nodeId tabId direction ratio first second hid hdirection hratio
      hfirst hsecond ih ih' =>
      obtain ⟨htab, hfirstTidy, hsecondTidy⟩ := htidy
      rw [if_neg (fun h => (by cases h))] at htab
      rw [height] at hlevels
      obtain ⟨levels, rfl⟩ : ∃ n, levels = n + 1 :=
        ⟨levels - 1, by omega⟩
      have hid' := normalizedText_validId hid (validId_iff.mp hid).2.1
      have hnew : nodeId ∉ usedPaneIds := fun hmem =>
        (List.nodup_append.mp hids).2.2 _ hmem _ List.mem_cons_self rfl
      have hread : ¬ ((!validId (normalizedText nodeId 96)
          || decide (normalizedText nodeId 96 ∈ usedPaneIds)) = true) := by
        simp [hid', hid, hnew]
      have hdirection' : decodeDirection
          (some (Json.str direction.name : Json D).sorted) = some direction := by
        rcases hdirection with rfl | rfl
        · rfl
        · rfl
      have hsides : ¬ (SshPaneKind.split.name ≠ codes "split"
          ∨ isJsonNull (some first.json.sorted) = true
          ∨ isJsonNull (some second.json.sorted) = true) := by
        rw [isJsonNull_json hfirst.ne_null, isJsonNull_json hsecond.ne_null]
        simp [SshPaneKind.name]
      rw [ids, List.append_cons, ← List.append_assoc] at hids
      rw [shown_split, ← List.append_assoc] at hshown
      have hone := @ih hfirstTidy levels (by omega) (usedPaneIds ++ [nodeId])
        usedTabIds (List.nodup_append.mp hids).1 (List.nodup_append.mp hshown).1
      have htwo := @ih' hsecondTidy levels (by omega)
        (usedPaneIds ++ [nodeId] ++ first.ids) (usedTabIds ++ first.shown)
        hids hshown
      unfold decodePane
      dsimp only
      rw [member_pane rfl, member_pane rfl]
      show (if _ then _ else if _ then _ else _) = _
      rw [if_neg hread, if_neg (by decide), member_pane rfl, member_pane rfl,
        if_neg hsides, member_pane rfl, member_pane rfl, decodeRatio_json hratio.1]
      rw [hdirection']
      dsimp only
      rw [hid', addId_of_notMem hnew, hone]
      dsimp only
      rw [htwo]
      dsimp only
      rw [if_neg (by simp [hfirst.ne_null, hsecond.ne_null]),
        clampRatio_of_ok hratio, htab, ids, shown_split]
      simp

end Panes

-- ================================ one item

variable [JsDouble D] {s : SshWorkspaceSnapshot D}

/-- A snapshot as it is read back. -/
def settle (s : SshWorkspaceSnapshot D) : SshWorkspaceSnapshot D :=
  { s with
    name := normalizedText s.name 120
    tabs := s.tabs.map settleTab }

omit [JsDouble D] in
theorem settle_normId : (settle s).tabs.map normId = s.tabs.map normId :=
  List.map_map

theorem valid_settle (h : Valid s) : Valid (settle s) where
  schema := h.schema
  workspaceId := h.workspaceId
  name := normalizedText_normalizedText_ne_nil h.name (by norm_num)
  numbers := ⟨h.numbers.integer, h.numbers.nonneg, h.numbers.created,
    h.numbers.updated, h.numbers.le⟩
  few := by
    rw [settle, List.length_map]
    exact h.few
  tabs := by
    refine ⟨fun t ht => ?_, List.pairwise_map.mpr h.tabs.apart⟩
    obtain ⟨u, hu, rfl⟩ := List.mem_map.mp ht
    obtain ⟨hid, hhost, hkind⟩ := h.tabs.normal u hu
    exact ⟨hid, hhost, hkind⟩
  order := ⟨h.order.nodup, fun id => by
    rw [settle_normId]
    exact h.order.mem id⟩
  panes := by
    rcases h.panes with ⟨htabs, hroot, htab, hpane⟩ | h
    · exact .inl ⟨by rw [settle, htabs, List.map_nil], hroot, htab, hpane⟩
    · refine .inr ⟨?_, h.ids, h.shown, h.few, h.active⟩
      rw [settle_normId]
      exact h.shape
  policy := h.policy

theorem member_snapshot {v : Json D}
    (h : Members.lookup (codes key) s.members = some v) :
    member key s.json.sorted = some v.sorted := by
  refine member_sorted ?_ h
  show [codes "schemaVersion", codes "revision", codes "workspaceId",
    codes "name", codes "tabs", codes "tabOrder", codes "paneRoot",
    codes "activeTabId", codes "activePaneId", codes "reconnectPolicy",
    codes "sidebarVisible", codes "inspectorVisible", codes "createdAt",
    codes "updatedAt"].Nodup
  decide

theorem member_snapshotNumber {d : D}
    (h : Members.lookup (codes key) s.members = some (numberJson d))
    (hfinite : JsDouble.isFinite d = true) :
    member key s.json.sorted = some (.num d) := by
  rw [member_snapshot h, numberJson_finite hfinite]
  rfl

theorem decodeRoot_json (h : Valid s) (htidy : Tidy s) (order : List Text) :
    decodeRoot s.workspaceId (s.tabs.map normId) order
      (some s.paneRoot.json.sorted) = s.paneRoot := by
  unfold decodeRoot
  dsimp only
  rcases h.panes with hnone | hpanes
  · rw [hnone.tabs, if_pos List.map_nil, hnone.paneRoot]
  · have hnormal : ∀ id ∈ s.tabs.map normId, normalizedText id 96 = id := by
      intro id hid
      obtain ⟨t, ht, rfl⟩ := List.mem_map.mp hid
      have hvalid := (h.tabs.normal t ht).tabId
      exact normalizedText_validId hvalid (validId_iff.mp hvalid).2.1
    have hheight := hpanes.shape.height_le.trans hpanes.few
    have hread : decodePane (s.tabs.map normId)
        (SSH_WORKSPACE_MAX_PANE_DEPTH + 1) (some s.paneRoot.json.sorted) [] []
        = ⟨s.paneRoot, [] ++ s.paneRoot.ids, [] ++ s.paneRoot.shown⟩ :=
      decodePane_json hpanes.shape htidy.tree hnormal
        (hheight.trans (by decide)) hpanes.ids hpanes.shown
    have htabs : ¬ s.tabs.map normId = [] := by
      rw [List.map_eq_nil_iff]
      exact hpanes.ne_nil
    rw [hread, if_neg htabs]
    dsimp only
    rw [hpanes.shape.ne_null]
    rfl

theorem leafById_active (h : Valid s) :
    (s.paneRoot.leafById s.activePaneId).getD [] = s.activeTabId := by
  rcases h.panes with hnone | hpanes
  · rw [hnone.paneRoot, hnone.activeTabId]
    rfl
  · rw [(hpanes.shape.leafById_iff hpanes.ids).mpr hpanes.active]
    rfl

theorem decodeActivePane_json (h : Valid s) :
    decodeActivePane s.paneRoot (member "activePaneId" s.json.sorted)
      = s.activePaneId := by
  rw [member_snapshot rfl]
  show (if _ then _ else _) = _
  rcases h.panes with hnone | hpanes
  · rw [hnone.paneRoot, hnone.activePaneId]
    rfl
  · rw [(hpanes.shape.leafById_iff hpanes.ids).mpr hpanes.active]
    rfl

theorem decodeCreatedAt_json (h : Valid s) (htidy : Tidy s) :
    decodeCreatedAt (member "createdAt" s.json.sorted) = s.createdAt := by
  rw [member_snapshotNumber rfl h.numbers.created]
  show (if _ then _ else _) = _
  rw [if_pos (by simp [h.numbers.created, htidy.nonneg]), htidy.created]

theorem decodeUpdatedAt_json (h : Valid s) (htidy : Tidy s) :
    decodeUpdatedAt s.createdAt (member "updatedAt" s.json.sorted)
      = s.updatedAt := by
  rw [member_snapshotNumber rfl h.numbers.updated]
  show (if _ then _ else _) = _
  rw [if_pos (by simp [h.numbers.updated, h.numbers.le]), htidy.updated]

theorem decodeRevision_json (h : Valid s) :
    decodeRevision (member "revision" s.json.sorted) = s.revision := by
  have hinteger := h.numbers.integer
  rw [isInteger, Bool.and_eq_true] at hinteger
  rw [member_snapshotNumber rfl hinteger.1]
  show (if _ then _ else _) = _
  rw [if_pos (by simp [h.numbers.integer, h.numbers.nonneg])]

theorem decodePolicy_json (h : Valid s) :
    (if isText (codes "ask") (member "reconnectPolicy" s.json.sorted) then
        SshWorkspaceReconnectPolicy.ask
      else .never) = s.reconnectPolicy := by
  rw [member_snapshot rfl]
  rcases h.policy with hpolicy | hpolicy
  · rw [hpolicy]
    rfl
  · rw [hpolicy]
    rfl

theorem decodeSnapshot_json (h : Valid s) (htidy : Tidy s) :
    decodeSnapshot s.json.sorted s.workspaceId (normalizedText s.name 120)
      (sortedItems (s.tabs.map SshWorkspaceTab.json))
      (sortedItems (s.tabOrder.map Json.str)) = settle s := by
  have hids : (s.tabs.map settleTab).map SshWorkspaceTab.tabId
      = s.tabs.map normId := by
    rw [List.map_map]
    exact List.map_congr_left fun t ht => (htidy.tabs t ht).tabId.symm
  have htabs : decodeTabs (sortedItems (s.tabs.map SshWorkspaceTab.json
      : List (Json D))) [] = s.tabs.map settleTab := by
    rw [sortedItems_eq_map, List.map_map]
    refine decodeTabs_json h.tabs.normal htidy.tabs ?_ ?_
    · refine List.pairwise_map.mpr (h.tabs.apart.imp_of_mem ?_)
      intro t u ht _ hne heq
      exact hne ((htidy.tabs t ht).tabId.trans heq)
    · rw [List.length_nil, Nat.zero_add]
      exact h.few
  have horder : decodeOrder (s.tabs.map normId) (sortedItems
      (s.tabOrder.map Json.str : List (Json D))) = s.tabOrder := by
    rw [sortedItems_eq_map, List.map_map]
    refine decodeOrder_json h.order.nodup h.order.mem fun id hid => ?_
    obtain ⟨t, ht, rfl⟩ := List.mem_map.mp ((h.order.mem id).mp hid)
    have hvalid := (h.tabs.normal t ht).tabId
    exact normalizedText_validId hvalid (validId_iff.mp hvalid).2.1
  have hroot : decodeRoot s.workspaceId (s.tabs.map normId) s.tabOrder
      (member "paneRoot" s.json.sorted) = s.paneRoot := by
    rw [member_snapshot rfl]
    exact decodeRoot_json h htidy s.tabOrder
  unfold decodeSnapshot
  dsimp only
  rw [htabs, hids, horder, hroot, decodeActivePane_json h, leafById_active h,
    decodeCreatedAt_json h htidy, decodeUpdatedAt_json h htidy,
    decodeRevision_json h, decodePolicy_json h, member_snapshot rfl,
    member_snapshot rfl, ← h.schema]
  rfl

/-- A tidy and valid snapshot is read, its texts normalised once more. -/
theorem decodeItem_json (h : Valid s) (htidy : Tidy s) :
    decodeWorkspaceItem s.json.sorted = ⟨some (settle s), false⟩ := by
  have hworkspace := normalizedText_validId h.workspaceId
    (validId_iff.mp h.workspaceId).2.1
  have hschema : JsDouble.isFinite s.schemaVersion = true := by
    rw [h.schema]
    exact JsDouble.finite_ofInt 1 (by decide)
  have hname : ¬ (normalizedText s.name 120).length = 0 := by
    rw [List.length_eq_zero_iff]
    exact h.name
  unfold decodeWorkspaceItem
  rw [member_snapshotNumber rfl hschema]
  dsimp only
  rw [if_neg (not_not.mpr h.schema), member_snapshot rfl, member_snapshot rfl,
    member_snapshot rfl, member_snapshot rfl]
  simp only [Json.sorted]
  rw [hworkspace, decodeSnapshot_json h htidy,
    if_neg (by simp [h.workspaceId, hname]),
    if_pos ((validate_iff _).mpr (valid_settle h))]

-- =================================== lists

theorem addId_nodup {ids rest : List Text} {id : Text}
    (h : (ids ++ id :: rest).Nodup) :
    id ∉ ids ∧ (addId ids id ++ rest).Nodup := by
  have hnew : id ∉ ids := fun hmem =>
    (List.nodup_append.mp h).2.2 _ hmem _ List.mem_cons_self rfl
  rw [addId_of_notMem hnew, ← List.append_cons]
  exact ⟨hnew, h⟩

theorem decodeItems_json {snapshots : List (SshWorkspaceSnapshot D)}
    {workspaceIds : List Text} (hvalid : ∀ s ∈ snapshots, Valid s)
    (htidy : ∀ s ∈ snapshots, Tidy s)
    (hids : (workspaceIds
      ++ snapshots.map SshWorkspaceSnapshot.workspaceId).Nodup) :
    decodeItems (snapshots.map fun s => s.json.sorted) workspaceIds
      = ⟨snapshots.map settle, 0, 0⟩ := by
  induction snapshots generalizing workspaceIds with
  | nil => rfl
  | cons s rest ih =>
    obtain ⟨hs, hvalid⟩ := List.forall_mem_cons.mp hvalid
    obtain ⟨hs', htidy⟩ := List.forall_mem_cons.mp htidy
    obtain ⟨hnew, hrest⟩ := addId_nodup hids
    rw [List.map_cons, decodeItems, decodeItem_json hs hs']
    have hid : (settle s).workspaceId = s.workspaceId := rfl
    dsimp only
    rw [hid, if_neg hnew, ih hvalid htidy hrest]
    rfl

/-- The envelope of what was written. -/
theorem envelopeItems_text (items : List (Json D)) :
    envelopeItems (Json.obj (envelopeMembers items)).text
      = some (items.map Json.sorted) := by
  have hkeys : (Members.keys (envelopeMembers items)).Nodup := by
    show [codes "schemaVersion", codes "items"].Nodup
    decide
  have hversion : numberJson (SSH_WORKSPACE_SCHEMA_VERSION : D)
      = .num SSH_WORKSPACE_SCHEMA_VERSION :=
    numberJson_finite (JsDouble.finite_ofInt 1 (by decide))
  unfold envelopeItems
  rw [parse_text_sorted]
  dsimp only
  rw [member_sorted hkeys rfl, member_sorted hkeys rfl, hversion]
  show (if decide (_ = _) = true then some (sortedItems items) else none) = _
  rw [if_pos (decide_eq_true rfl), sortedItems_eq_map]

theorem encode_ne_blank (snapshots : List (SshWorkspaceSnapshot D)) :
    Sftp.trim (encodeSshWorkspaceSnapshots snapshots) ≠ [] := by
  refine trimBy_ne_nil Sftp.isSpace (x := 123) ?_ rfl
  unfold encodeSshWorkspaceSnapshots
  rw [Json.text]
  exact List.mem_append_left _ List.mem_cons_self

/-- What comes back of a list: the valid ones, their texts normalised once
more. -/
theorem decode_encode {snapshots : List (SshWorkspaceSnapshot D)}
    (htidy : ∀ s ∈ snapshots, Tidy s)
    (hids : (snapshots.map SshWorkspaceSnapshot.workspaceId).Nodup)
    (hfits : (encodeSshWorkspaceSnapshots snapshots).length
      ≤ SSH_WORKSPACE_MAX_SERIALIZED_BYTES) :
    decodeSshWorkspaceSnapshots (encodeSshWorkspaceSnapshots snapshots)
      = ⟨(snapshots.filter fun s =>
          validateSshWorkspaceSnapshot s = []).map settle, 0, 0⟩ := by
  unfold decodeSshWorkspaceSnapshots
  rw [if_neg (not_or.mpr ⟨encode_ne_blank snapshots, by omega⟩),
    encodeSshWorkspaceSnapshots, envelopeItems_text, List.map_map]
  refine decodeItems_json (fun s hs => ?_) (fun s hs => ?_) ?_
  · exact (validate_iff s).mp (of_decide_eq_true (List.mem_filter.mp hs).2)
  · exact htidy s (List.mem_filter.mp hs).1
  · exact hids.sublist (List.filter_sublist.map _)

-- ============================ what is read

/-- The tabs that are kept, with the ids of those before. -/
def keptTabs : List (Json D) → List Text → List (Json D)
  | [], _ => []
  | raw :: rest, ids =>
    if ids.length ≥ SSH_WORKSPACE_MAX_TABS then []
    else match normalizedTab raw with
      | none => keptTabs rest ids
      | some tab =>
        if tab.tabId ∈ ids then keptTabs rest ids
        else raw :: keptTabs rest (ids ++ [tab.tabId])

omit [JsDouble D] in
theorem decodeTabs_eq (rawTabs : List (Json D)) (tabs : List SshWorkspaceTab) :
    decodeTabs rawTabs tabs = tabs
      ++ (keptTabs rawTabs (tabs.map SshWorkspaceTab.tabId)).filterMap
        normalizedTab := by
  induction rawTabs generalizing tabs with
  | nil => exact (List.append_nil tabs).symm
  | cons raw rest ih =>
    rw [decodeTabs, keptTabs, List.length_map]
    by_cases hfull : tabs.length ≥ SSH_WORKSPACE_MAX_TABS
    · rw [if_pos hfull, if_pos hfull]
      exact (List.append_nil tabs).symm
    rw [if_neg hfull, if_neg hfull]
    cases htab : normalizedTab raw with
    | none => exact ih tabs
    | some tab =>
      dsimp only
      by_cases hmem : tab.tabId ∈ tabs.map SshWorkspaceTab.tabId
      · rw [if_pos hmem, if_pos hmem]
        exact ih tabs
      · rw [if_neg hmem, if_neg hmem, ih, List.filterMap_cons, htab,
          List.map_append, List.append_assoc]
        rfl

omit [JsDouble D] in
theorem keptTabs_some {rawTabs : List (Json D)} {ids : List Text}
    {raw : Json D} (h : raw ∈ keptTabs rawTabs ids) :
    ∃ t, normalizedTab raw = some t := by
  induction rawTabs generalizing ids with
  | nil => cases h
  | cons first rest ih =>
    rw [keptTabs] at h
    split at h
    · cases h
    split at h
    · exact ih h
    rename_i tab htab
    split at h
    · exact ih h
    rcases List.mem_cons.mp h with heq | h
    · exact ⟨tab, heq ▸ htab⟩
    · exact ih h

omit [JsDouble D] in
theorem mem_decodeTabs {rawTabs : List (Json D)} :
    t ∈ decodeTabs rawTabs [] ↔
      ∃ raw ∈ keptTabs rawTabs [], normalizedTab raw = some t := by
  rw [decodeTabs_eq, List.nil_append, List.mem_filterMap]
  rfl

theorem tidy_decodePane (validTabIds : List Text) (levels : Nat)
    (source : Option (Json D)) (usedPaneIds usedTabIds : List Text) :
    TidyTree (decodePane validTabIds levels source usedPaneIds
      usedTabIds).pane := by
  induction levels generalizing source usedPaneIds usedTabIds with
  | zero => trivial
  | succ levels ih =>
    unfold decodePane
    dsimp only
    split
    swap
    · trivial
    split
    · trivial
    split
    · split
      · split
        · trivial
        · exact tidyTree_newLeaf _ _
      · trivial
    split
    · trivial
    split
    swap
    · trivial
    split
    · dsimp only
      split
      · exact ih _ _ _
      · exact ih _ _ _
    · exact ⟨rfl, ih _ _ _, ih _ _ _⟩

theorem decodeCreatedAt_spec (source : Option (Json D)) :
    JsNumber.ofInt 0 ≤ decodeCreatedAt source
      ∧ JsDouble.floor (decodeCreatedAt source) = decodeCreatedAt source := by
  have hzero : JsDouble.floor (JsNumber.ofInt 0 : D) = JsNumber.ofInt 0 :=
    JsDouble.floor_ofInt 0 (by decide)
  unfold decodeCreatedAt
  split
  · split
    · rename_i d hboth
      rw [Bool.and_eq_true, decide_eq_true_eq] at hboth
      refine ⟨?_, JsDouble.floor_floor d⟩
      rw [← hzero]
      exact JsDouble.floor_mono hboth.2
    · exact ⟨le_refl _, hzero⟩
  · exact ⟨le_refl _, hzero⟩

theorem floor_decodeUpdatedAt {createdAt : D}
    (h : JsDouble.floor createdAt = createdAt) (source : Option (Json D)) :
    JsDouble.floor (decodeUpdatedAt createdAt source)
      = decodeUpdatedAt createdAt source := by
  unfold decodeUpdatedAt
  split
  · split
    · exact JsDouble.floor_floor _
    · exact h
  · exact h

theorem tidy_decodeSnapshot (source : Json D) (workspaceId name : Text)
    (rawTabs rawOrder : List (Json D)) :
    Tidy (decodeSnapshot source workspaceId name rawTabs rawOrder) := by
  obtain ⟨hnonneg, hcreated⟩ :=
    decodeCreatedAt_spec (member "createdAt" source)
  refine ⟨fun t ht => ?_, ?_, hcreated, hnonneg,
    floor_decodeUpdatedAt hcreated _⟩
  · obtain ⟨raw, -, hraw⟩ := mem_decodeTabs.mp ht
    exact (tidy_of_normalizedTab hraw).2
  · show TidyTree (decodeRoot _ _ _ _)
    unfold decodeRoot
    dsimp only
    split
    · trivial
    split
    · exact tidyTree_newLeaf _ _
    · exact tidy_decodePane _ _ _ _ _

/-- What is read of an item. -/
theorem decodeItem_spec {source : Json D}
    (h : (decodeWorkspaceItem source).snapshot = some s) :
    Valid s ∧ Tidy s ∧ ∃ name rawTabs,
      member "name" source = some (.str name)
        ∧ member "tabs" source = some (.arr rawTabs)
        ∧ s.name = normalizedText name 120 ∧ s.tabs = decodeTabs rawTabs [] := by
  unfold decodeWorkspaceItem at h
  split at h
  swap
  · cases h
  split at h
  · cases h
  split at h
  swap
  · cases h
  rename_i rawId name rawTabs rawOrder _ hname htabs _
  dsimp only at h
  split at h
  · cases h
  split at h
  swap
  · cases h
  rename_i hvalid
  obtain rfl := Option.some.inj h
  exact ⟨(validate_iff _).mp hvalid, tidy_decodeSnapshot _ _ _ _ _, name,
    rawTabs, hname, htabs, rfl, rfl⟩

theorem decodeItems_ids (items : List (Json D)) {workspaceIds : List Text}
    (h : workspaceIds.Nodup) :
    (workspaceIds ++ (decodeItems items workspaceIds).snapshots.map
      SshWorkspaceSnapshot.workspaceId).Nodup := by
  induction items generalizing workspaceIds with
  | nil =>
    show (workspaceIds ++ []).Nodup
    rw [List.append_nil]
    exact h
  | cons item rest ih =>
    rw [decodeItems]
    cases (decodeWorkspaceItem item).snapshot with
    | none =>
      dsimp only
      split
      · exact ih h
      · exact ih h
    | some s =>
      dsimp only
      by_cases hmem : s.workspaceId ∈ workspaceIds
      · rw [if_pos hmem]
        exact ih h
      · rw [if_neg hmem]
        have hrest := ih (nodup_addId h s.workspaceId)
        rw [addId_of_notMem hmem] at hrest
        dsimp only
        rw [List.map_cons, List.append_cons, addId_of_notMem hmem]
        exact hrest

/-- The items that are kept, with the workspace ids met before. -/
def keptItems : List (Json D) → List Text → List (Json D)
  | [], _ => []
  | item :: rest, workspaceIds =>
    match (decodeWorkspaceItem item).snapshot with
    | none => keptItems rest workspaceIds
    | some snapshot =>
      if snapshot.workspaceId ∈ workspaceIds then
        keptItems rest workspaceIds
      else item :: keptItems rest (addId workspaceIds snapshot.workspaceId)

theorem decodeItems_snapshots (items : List (Json D))
    (workspaceIds : List Text) :
    (decodeItems items workspaceIds).snapshots.map some
      = (keptItems items workspaceIds).map fun item =>
        (decodeWorkspaceItem item).snapshot := by
  induction items generalizing workspaceIds with
  | nil => rfl
  | cons item rest ih =>
    rw [decodeItems, keptItems]
    cases hitem : (decodeWorkspaceItem item).snapshot with
    | none =>
      dsimp only
      split
      · exact ih workspaceIds
      · exact ih workspaceIds
    | some s =>
      dsimp only
      split
      · exact ih workspaceIds
      · rw [List.map_cons, List.map_cons, hitem]
        exact congrArg _ (ih _)

/-- The items that are walked. -/
def storedItems (raw : Text) : List (Json D) :=
  if Sftp.trim raw = [] ∨ raw.length > SSH_WORKSPACE_MAX_SERIALIZED_BYTES then
    []
  else (envelopeItems raw).getD []

theorem decode_snapshots (raw : Text) :
    (decodeSshWorkspaceSnapshots raw).snapshots
      = (decodeItems (storedItems raw : List (Json D)) []).snapshots := by
  unfold decodeSshWorkspaceSnapshots storedItems
  split
  · rfl
  · cases (envelopeItems raw : Option (List (Json D))) with
    | none => rfl
    | some items => rfl

-- ================================= settled

omit [JsDouble D] in
theorem map_eq_self_iff {α : Type} {l : List α} {f : α → α} :
    l.map f = l ↔ ∀ x ∈ l, f x = x := by
  have h := List.map_inj_left (l := l) (f := f) (g := id)
  rwa [List.map_id] at h

/-- Every text of a snapshot is as it is normalised. -/
structure Settled (s : SshWorkspaceSnapshot D) : Prop where
  name : normalizedText s.name 120 = s.name
  title : ∀ t ∈ s.tabs, normalizedText t.titleOverride 160 = t.titleOverride
  profile : ∀ t ∈ s.tabs, normalizedText t.profileId 96 = t.profileId

omit [JsDouble D] in
theorem settleTab_eq_iff : settleTab t = t ↔
    normalizedText t.titleOverride 160 = t.titleOverride
      ∧ normalizedText t.profileId 96 = t.profileId := by
  obtain ⟨tabId, kind, hostId, title, profile, pinned⟩ := t
  simp [settleTab]

omit [JsDouble D] in
theorem settle_eq_self : settle s = s ↔
    normalizedText s.name 120 = s.name ∧ s.tabs.map settleTab = s.tabs := by
  cases s
  simp [settle]

omit [JsDouble D] in
theorem settle_eq_iff : settle s = s ↔ Settled s := by
  rw [settle_eq_self, map_eq_self_iff]
  constructor
  · intro ⟨hname, htabs⟩
    exact ⟨hname, fun t ht => (settleTab_eq_iff.mp (htabs t ht)).1,
      fun t ht => (settleTab_eq_iff.mp (htabs t ht)).2⟩
  · intro h
    exact ⟨h.name, fun t ht =>
      settleTab_eq_iff.mpr ⟨h.title t ht, h.profile t ht⟩⟩

/-- No text of a stored tab is cut behind white space. -/
def WholeTab (raw : Json D) : Prop :=
  (∀ title, member "titleOverride" raw = some (.str title) → Whole title 160)
    ∧ ∀ profile, member "profileId" raw = some (.str profile) →
      Whole profile 96

/-- No text that is kept of a stored item is. -/
def WholeItem (source : Json D) : Prop :=
  (∀ name, member "name" source = some (.str name) → Whole name 120)
    ∧ ∀ rawTabs, member "tabs" source = some (.arr rawTabs) →
      ∀ raw ∈ keptTabs rawTabs [], WholeTab raw

omit [JsDouble D] in
theorem settleTab_iff {raw : Json D}
    (h : normalizedTab raw = some t) : settleTab t = t ↔ WholeTab raw := by
  have htexts : ∃ title profile,
      member "titleOverride" raw = some (.str title)
        ∧ member "profileId" raw = some (.str profile)
        ∧ t.titleOverride = normalizedText title 160
        ∧ t.profileId = normalizedText profile 96 := by
    unfold normalizedTab at h
    split at h
    swap
    · cases h
    rename_i title profile _ _ _ _ htitle hprofile _
    dsimp only at h
    split at h
    · cases h
    split at h
    · obtain rfl := Option.some.inj h
      exact ⟨title, profile, htitle, hprofile, rfl, rfl⟩
    split at h
    · obtain rfl := Option.some.inj h
      exact ⟨title, profile, htitle, hprofile, rfl, rfl⟩
    · cases h
  obtain ⟨title, profile, htitle, hprofile, htitle', hprofile'⟩ := htexts
  rw [settleTab_eq_iff, htitle', hprofile', normalizedText_again,
    normalizedText_again, WholeTab, htitle, hprofile]
  simp

theorem settled_iff {source : Json D}
    (h : (decodeWorkspaceItem source).snapshot = some s) :
    settle s = s ↔ WholeItem source := by
  obtain ⟨-, -, name, rawTabs, hname, htabs, hname', htabs'⟩ :=
    decodeItem_spec h
  rw [settle_eq_self, hname', normalizedText_again, map_eq_self_iff, htabs']
  constructor
  · intro ⟨hwhole, hall⟩
    refine ⟨fun name' hname'' => ?_, fun rawTabs' htabs'' raw hraw => ?_⟩
    · rw [hname] at hname''
      cases hname''
      exact hwhole
    · rw [htabs] at htabs''
      cases htabs''
      obtain ⟨t, ht⟩ := keptTabs_some hraw
      exact (settleTab_iff ht).mp (hall t (mem_decodeTabs.mpr ⟨raw, hraw, ht⟩))
  · intro ⟨hwhole, hall⟩
    refine ⟨hwhole name hname, fun t ht => ?_⟩
    obtain ⟨raw, hraw, ht⟩ := mem_decodeTabs.mp ht
    exact (settleTab_iff ht).mpr (hall rawTabs htabs raw hraw)

/-- The snapshots that actions make of a new workspace. -/
inductive Reachable : SshWorkspaceSnapshot D → Prop
  | created (workspaceId name : Text) (nowMs : Option D) :
      Reachable (createEmptySshWorkspace workspaceId name nowMs)
  | acted {s : SshWorkspaceSnapshot D} (h : Reachable s)
      (a : SshWorkspaceAction D) (hok : (reduceSshWorkspace s a).error = none) :
      Reachable (reduceSshWorkspace s a).snapshot

theorem Reachable.tidy (h : Reachable s) : Tidy s := by
  induction h with
  | created workspaceId name nowMs =>
    exact (createEmpty_spec workspaceId name nowMs).2.1
  | acted _ _ _ ih => exact (reduce_tidy ih).1

theorem filter_map_eq_self_iff {α : Type} {l : List α} {p : α → Bool}
    {f : α → α} :
    (l.filter p).map f = l ↔ ∀ x ∈ l, p x = true ∧ f x = x := by
  constructor
  · intro h
    have hlen := congrArg List.length h
    rw [List.length_map] at hlen
    have hall := List.length_filter_eq_length_iff.mp hlen
    rw [List.filter_eq_self.mpr hall, map_eq_self_iff] at h
    exact fun x hx => ⟨hall x hx, h x hx⟩
  · intro h
    rw [List.filter_eq_self.mpr fun x hx => (h x hx).1, map_eq_self_iff]
    exact fun x hx => (h x hx).2

/-- The snapshots that are read, and the items they are read of. -/
theorem mem_decoded {raw : Text} :
    s ∈ (decodeSshWorkspaceSnapshots raw).snapshots ↔
      ∃ item ∈ keptItems (storedItems raw) [],
        (decodeWorkspaceItem item).snapshot = some s := by
  rw [decode_snapshots, ← List.mem_map_of_injective (Option.some_injective _),
    decodeItems_snapshots, List.mem_map]

theorem keptItems_some {raw : Text} {item : Json D}
    (h : item ∈ keptItems (storedItems raw) []) :
    ∃ s, (decodeWorkspaceItem item).snapshot = some s := by
  have hmem := List.mem_map_of_mem
    (f := fun item => (decodeWorkspaceItem item).snapshot) h
  rw [← decodeItems_snapshots] at hmem
  obtain ⟨s, -, hs⟩ := List.mem_map.mp hmem
  exact ⟨s, hs.symm⟩

/-- What is read, written and read again is as it was exactly if no text of
an item that was kept is cut behind white space. -/
theorem decoded_again {raw : Text}
    {result : SshWorkspaceDecodeResult D}
    (hresult : decodeSshWorkspaceSnapshots raw = result)
    (hfits : (encodeSshWorkspaceSnapshots result.snapshots).length
      ≤ SSH_WORKSPACE_MAX_SERIALIZED_BYTES) :
    (decodeSshWorkspaceSnapshots
        (encodeSshWorkspaceSnapshots result.snapshots)).snapshots
        = result.snapshots ↔
      ∀ item ∈ keptItems (storedItems raw : List (Json D)) [],
        WholeItem item := by
  subst hresult
  have hspec : ∀ s ∈ (decodeSshWorkspaceSnapshots raw
      : SshWorkspaceDecodeResult D).snapshots, Valid s ∧ Tidy s := by
    intro s hs
    obtain ⟨item, -, hitem⟩ := mem_decoded.mp hs
    obtain ⟨hvalid, htidy, -⟩ := decodeItem_spec hitem
    exact ⟨hvalid, htidy⟩
  have hids : ((decodeSshWorkspaceSnapshots raw
      : SshWorkspaceDecodeResult D).snapshots.map
        SshWorkspaceSnapshot.workspaceId).Nodup := by
    rw [decode_snapshots]
    exact decodeItems_ids _ List.nodup_nil
  rw [decode_encode (fun s hs => (hspec s hs).2) hids hfits]
  dsimp only
  rw [filter_map_eq_self_iff]
  constructor
  · intro hall item hitem
    obtain ⟨s, hs⟩ := keptItems_some hitem
    exact (settled_iff hs).mp (hall s (mem_decoded.mpr ⟨item, hitem, hs⟩)).2
  · intro hall s hs
    obtain ⟨item, hitem, hread⟩ := mem_decoded.mp hs
    exact ⟨decide_eq_true ((validate_iff s).mpr (hspec s hs).1),
      (settled_iff hread).mpr (hall item hitem)⟩

/-- A new workspace whose name is cut behind a space. -/
def cutWorkspace : SshWorkspaceSnapshot Int :=
  createEmptySshWorkspace (codes "w") (List.replicate 119 97 ++ [32, 98])
    (some 0)

end RemoteDesk.Ssh.Workspace
