/-
Valid SSH workspaces.

`Valid` says what a snapshot without a validation error is
(`validate_iff`): every tab has one place in the order, the tree shows only
tabs that there are and none of them twice, and the active pane shows the
active tab.
-/
import RemoteDesk.Ssh.WorkspaceTree

namespace RemoteDesk.Ssh.Workspace

open Lib SshPaneNode

variable {D : Type}

-- =================================== texts

theorem isSpace_of_isIdUnit {u : Nat} (h : isIdUnit u = true) :
    Sftp.isSpace u = false := by
  unfold isIdUnit Endpoint.isAsciiAlnum Endpoint.isAsciiAlpha isDigitCode at h
  unfold Sftp.isSpace
  simp only [Bool.or_eq_true, Bool.and_eq_true, decide_eq_true_eq] at h
  simp only [Bool.or_eq_false_iff, Bool.and_eq_false_iff,
    decide_eq_false_iff_not]
  omega

variable {value : Text} {ids : List Text}

theorem validId_iff : validId value = true ↔
    value ≠ [] ∧ value.length ≤ 96 ∧ ∀ u ∈ value, isIdUnit u = true := by
  simp [validId, List.length_pos_iff, and_assoc]

/-- An id is as it is normalised. -/
theorem normalizedText_validId (h : validId value = true) {n : Nat}
    (hn : value.length ≤ n) : normalizedText value n = value := by
  obtain ⟨-, -, hunits⟩ := validId_iff.mp h
  have htrim : Sftp.trim value = value := by
    refine (trimBy_eq_self_iff _).mpr ⟨fun u hu => ?_, fun u hu => ?_⟩
    · exact isSpace_of_isIdUnit (hunits u (List.mem_of_head? hu))
    · exact isSpace_of_isIdUnit (hunits u (List.mem_of_getLast? hu))
  rw [normalizedText, htrim, List.take_of_length_le hn]

/-- A text that was trimmed starts with no space, however it is cut. -/
theorem normalizedText_normalizedText_ne_nil {n m : Nat}
    (h : normalizedText value n ≠ []) (hm : 0 < m) :
    normalizedText (normalizedText value n) m ≠ [] := by
  obtain ⟨u, rest, hcons⟩ := List.exists_cons_of_ne_nil h
  have hhead : u ∈ (Sftp.trim value).head? := by
    unfold normalizedText at hcons
    cases htrim : Sftp.trim value with
    | nil => simp [htrim] at hcons
    | cons v trimmed =>
      cases n with
      | zero => simp at hcons
      | succ n =>
        rw [htrim, List.take_succ_cons] at hcons
        rw [(List.cons.inj hcons).1]
        rfl
  have hspace := head_trimBy Sftp.isSpace u hhead
  have hne : Sftp.trim (normalizedText value n) ≠ [] :=
    trimBy_ne_nil Sftp.isSpace (hcons ▸ List.mem_cons_self) hspace
  rw [normalizedText, Ne, List.take_eq_nil_iff]
  exact fun hnil => hnil.elim (fun hzero => by omega) hne

-- ==================================== tabs

/-- The id of a tab as the validator takes it. -/
def normId (t : SshWorkspaceTab) : Text := normalizedText t.tabId 96

/-- A tab that can be normalised. -/
structure Normalizes (t : SshWorkspaceTab) : Prop where
  tabId : validId (normId t) = true
  hostId : validId (normalizedText t.hostId 96) = true
  kind : t.kind.name = codes "terminal" ∨ t.kind.name = codes "sftp"

/-- Every tab can be normalised, and no id is the normalised one of a tab
before. -/
structure TabsOk (tabs : List SshWorkspaceTab) : Prop where
  normal : ∀ t ∈ tabs, Normalizes t
  apart : tabs.Pairwise fun s t => normId s ≠ t.tabId

theorem normalizedTab_json (t : SshWorkspaceTab) :
    normalizedTab (t.json : Json D) =
      if !validId (normId t) || !validId (normalizedText t.hostId 96) then none
      else
        let tab kind : SshWorkspaceTab :=
          { tabId := normId t, kind, hostId := normalizedText t.hostId 96
            titleOverride := normalizedText t.titleOverride 160
            profileId := normalizedText t.profileId 96, pinned := t.pinned }
        if t.kind.name = codes "terminal" then some (tab .terminal)
        else if t.kind.name = codes "sftp" then some (tab .sftp)
        else none := rfl

theorem normalizedTab_some {t : SshWorkspaceTab} (h : Normalizes t) :
    ∃ tab, normalizedTab (t.json : Json D) = some tab
      ∧ tab.tabId = normId t := by
  obtain ⟨hid, hhost, hkind⟩ := h
  rw [normalizedTab_json, if_neg (by simp [hid, hhost])]
  dsimp only
  by_cases hterminal : t.kind.name = codes "terminal"
  · rw [if_pos hterminal]
    exact ⟨_, rfl, rfl⟩
  · rw [if_neg hterminal, if_pos (hkind.resolve_left hterminal)]
    exact ⟨_, rfl, rfl⟩

theorem normalizedTab_none {t : SshWorkspaceTab} (h : ¬ Normalizes t) :
    normalizedTab (t.json : Json D) = none := by
  rw [normalizedTab_json]
  split
  · rfl
  rename_i hids
  simp only [Bool.or_eq_true, not_or, Bool.not_eq_true',
    Bool.not_eq_false] at hids
  dsimp only
  rw [if_neg fun hk => h ⟨hids.1, hids.2, .inl hk⟩,
    if_neg fun hk => h ⟨hids.1, hids.2, .inr hk⟩]

theorem mem_addId {id x : Text} : x ∈ addId ids id ↔ x ∈ ids ∨ x = id := by
  unfold addId
  split
  · rename_i hmem
    exact ⟨.inl, fun h => h.elim (fun h => h) fun heq => heq ▸ hmem⟩
  · rw [List.mem_append, List.mem_singleton]

theorem nodup_addId (h : ids.Nodup) (id : Text) : (addId ids id).Nodup := by
  by_cases hmem : id ∈ ids
  · rw [addId, if_pos hmem]
    exact h
  · rw [addId_of_notMem hmem, List.nodup_append]
    exact ⟨h, List.nodup_singleton _, fun a ha b hb hab =>
      hmem (List.mem_singleton.mp hb ▸ hab ▸ ha)⟩

/-- The loop over the tabs ends without an error exactly if they are as they
should be, beside those before; it has then met their ids. -/
theorem validateTabs_iff (tabs : List SshWorkspaceTab) (ids : List Text)
    (errors : List String) :
    errors.length ≤ (validateTabs (D := D) tabs ids errors).2.length
      ∧ ((validateTabs (D := D) tabs ids errors).2 = errors ↔
        TabsOk tabs ∧ ∀ t ∈ tabs, t.tabId ∉ ids) := by
  induction tabs generalizing ids errors with
  | nil =>
    exact ⟨le_refl _, iff_of_true rfl ⟨⟨by simp, List.Pairwise.nil⟩,
      by simp⟩⟩
  | cons t tabs ih =>
    have hmore : ∀ r : List String, (errors ++ ["tab"]).length ≤ r.length →
        errors.length ≤ r.length ∧ r ≠ errors := by
      intro r hr
      rw [List.length_append] at hr
      refine ⟨(Nat.le_add_right _ _).trans hr, ?_⟩
      rintro rfl
      simp at hr
    rw [validateTabs]
    by_cases hnormal : Normalizes t
    · obtain ⟨tab, htab, hid⟩ := normalizedTab_some (D := D) hnormal
      rw [htab]
      dsimp only
      by_cases hmem : t.tabId ∈ ids
      · rw [if_pos hmem]
        obtain ⟨hle, hne⟩ := hmore _ (ih ids (errors ++ ["tab"])).1
        refine ⟨hle, iff_of_false hne fun h => ?_⟩
        exact h.2 t List.mem_cons_self hmem
      · rw [if_neg hmem]
        obtain ⟨hle, hiff⟩ := ih (addId ids tab.tabId) errors
        refine ⟨hle, hiff.trans ?_⟩
        constructor
        · intro ⟨⟨hall, hapart⟩, hnew⟩
          refine ⟨⟨List.forall_mem_cons.mpr ⟨hnormal, hall⟩,
            List.pairwise_cons.mpr ⟨fun u hu heq => ?_, hapart⟩⟩,
            List.forall_mem_cons.mpr ⟨hmem, fun u hu hu' => ?_⟩⟩
          · exact hnew u hu (mem_addId.mpr (.inr (heq ▸ hid.symm)))
          · exact hnew u hu (mem_addId.mpr (.inl hu'))
        · intro ⟨⟨hall, hapart⟩, hnew⟩
          obtain ⟨hhead, hapart⟩ := List.pairwise_cons.mp hapart
          refine ⟨⟨(List.forall_mem_cons.mp hall).2, hapart⟩,
            fun u hu hmem => ?_⟩
          rcases mem_addId.mp hmem with hmem | heq
          · exact hnew u (List.mem_cons_of_mem _ hu) hmem
          · exact hhead u hu (hid.symm.trans heq.symm)
    · rw [normalizedTab_none hnormal]
      dsimp only
      obtain ⟨hle, hne⟩ := hmore _ (ih ids (errors ++ ["tab"])).1
      exact ⟨hle, iff_of_false hne fun h =>
        hnormal (h.1.normal t List.mem_cons_self)⟩

theorem validateTabs_ids {tabs : List SshWorkspaceTab} (errors : List String)
    (h : TabsOk tabs) (hnew : ∀ t ∈ tabs, t.tabId ∉ ids) (hids : ids.Nodup) :
    (validateTabs (D := D) tabs ids errors).1.Nodup
      ∧ ∀ x, x ∈ (validateTabs (D := D) tabs ids errors).1 ↔
        x ∈ ids ∨ x ∈ tabs.map normId := by
  induction tabs generalizing ids with
  | nil => exact ⟨hids, fun x => by simp [validateTabs]⟩
  | cons t tabs ih =>
    obtain ⟨hnormal, hall⟩ := List.forall_mem_cons.mp h.normal
    obtain ⟨hhead, hapart⟩ := List.pairwise_cons.mp h.apart
    obtain ⟨hmem, hnew⟩ := List.forall_mem_cons.mp hnew
    obtain ⟨tab, htab, hid⟩ := normalizedTab_some (D := D) hnormal
    rw [validateTabs, htab]
    dsimp only
    rw [if_neg hmem, hid]
    have hnew' : ∀ u ∈ tabs, u.tabId ∉ addId ids (normId t) := by
      intro u hu hin
      rcases mem_addId.mp hin with hin | heq
      · exact hnew u hu hin
      · exact hhead u hu heq.symm
    obtain ⟨hnodup, hiff⟩ := ih ⟨hall, hapart⟩ hnew' (nodup_addId hids _)
    refine ⟨hnodup, fun x => ?_⟩
    rw [hiff, mem_addId, List.map_cons, List.mem_cons, or_assoc]

theorem validateOrder_iff (tabIds order ids : List Text)
    (errors : List String) :
    errors.length ≤ (validateOrder tabIds order ids errors).2.length
      ∧ ((validateOrder tabIds order ids errors).2 = errors ↔
        order.Nodup ∧ ∀ x ∈ order, x ∈ tabIds ∧ x ∉ ids) := by
  induction order generalizing ids errors with
  | nil => exact ⟨le_refl _, iff_of_true rfl ⟨List.nodup_nil, by simp⟩⟩
  | cons id order ih =>
    rw [validateOrder]
    by_cases hbad : id ∉ tabIds ∨ id ∈ ids
    · rw [if_pos hbad]
      have hle := (ih ids (errors ++ ["tab_order"])).1
      rw [List.length_append] at hle
      refine ⟨(Nat.le_add_right _ _).trans hle, iff_of_false ?_ ?_⟩
      · intro heq
        rw [heq] at hle
        simp at hle
      · intro h
        obtain ⟨hin, hout⟩ := h.2 id List.mem_cons_self
        exact hbad.elim (fun h => h hin) hout
    · rw [if_neg hbad]
      rw [not_or, not_not] at hbad
      obtain ⟨hle, hiff⟩ := ih (addId ids id) errors
      refine ⟨hle, hiff.trans ?_⟩
      simp only [mem_addId, not_or, List.nodup_cons, List.forall_mem_cons]
      constructor
      · intro ⟨hnodup, hall⟩
        exact ⟨⟨fun hmem => (hall id hmem).2.2 rfl, hnodup⟩, hbad,
          fun x hx => ⟨(hall x hx).1, (hall x hx).2.1⟩⟩
      · rintro ⟨⟨hnew, hnodup⟩, -, hall⟩
        refine ⟨hnodup, fun x hx => ⟨(hall x hx).1, (hall x hx).2, ?_⟩⟩
        rintro rfl
        exact hnew hx

theorem validateOrder_ids {tabIds order ids : List Text}
    (errors : List String) (hnodup : order.Nodup)
    (h : ∀ x ∈ order, x ∈ tabIds ∧ x ∉ ids) :
    (validateOrder tabIds order ids errors).1 = ids ++ order := by
  induction order generalizing ids with
  | nil => exact (List.append_nil ids).symm
  | cons id order ih =>
    obtain ⟨hnew, hnodup⟩ := List.nodup_cons.mp hnodup
    obtain ⟨⟨hin, hout⟩, h⟩ := List.forall_mem_cons.mp h
    rw [validateOrder, if_neg (by simp [hin, hout]), addId_of_notMem hout,
      ih hnodup, List.append_assoc]
    · rfl
    · intro x hx
      refine ⟨(h x hx).1, ?_⟩
      rw [List.mem_append, List.mem_singleton, not_or]
      exact ⟨(h x hx).2, fun heq => hnew (heq ▸ hx)⟩

-- =================================== valid

variable [JsDouble D]

/-- A tree whose active pane shows the active tab. -/
structure PanesOk (s : SshWorkspaceSnapshot D) : Prop where
  shape : Shape (s.tabs.map normId) s.paneRoot
  ids : s.paneRoot.ids.Nodup
  shown : s.paneRoot.shown.Nodup
  few : s.paneRoot.leaves.length ≤ SSH_WORKSPACE_MAX_VISIBLE_PANES
  active : (s.activePaneId, s.activeTabId) ∈ s.paneRoot.leaves

structure NoPanes (s : SshWorkspaceSnapshot D) : Prop where
  tabs : s.tabs = []
  paneRoot : s.paneRoot = .null
  activeTabId : s.activeTabId = []
  activePaneId : s.activePaneId = []

structure NumbersOk (s : SshWorkspaceSnapshot D) : Prop where
  integer : isInteger s.revision = true
  nonneg : JsNumber.ofInt 0 ≤ s.revision
  created : JsDouble.isFinite s.createdAt = true
  updated : JsDouble.isFinite s.updatedAt = true
  le : s.createdAt ≤ s.updatedAt

structure OrderOk (s : SshWorkspaceSnapshot D) : Prop where
  nodup : s.tabOrder.Nodup
  mem : ∀ id, id ∈ s.tabOrder ↔ id ∈ s.tabs.map normId

structure Valid (s : SshWorkspaceSnapshot D) : Prop where
  schema : s.schemaVersion = SSH_WORKSPACE_SCHEMA_VERSION
  workspaceId : validId s.workspaceId = true
  name : normalizedText s.name 120 ≠ []
  numbers : NumbersOk s
  few : s.tabs.length ≤ SSH_WORKSPACE_MAX_TABS
  tabs : TabsOk s.tabs
  order : OrderOk s
  panes : NoPanes s ∨ PanesOk s
  policy : s.reconnectPolicy = .never ∨ s.reconnectPolicy = .ask

theorem check_eq_nil {ok : Bool} {error : String} :
    check ok error = [] ↔ ok = true := by
  cases ok with
  | true => exact iff_of_true rfl rfl
  | false => exact iff_of_false (List.cons_ne_nil _ _) Bool.false_ne_true

theorem PanesOk.ne_nil {s : SshWorkspaceSnapshot D} (h : PanesOk s) :
    s.tabs ≠ [] := by
  intro hnil
  have hmem := h.shape.shown_mem (List.mem_map_of_mem h.active)
  rw [hnil] at hmem
  cases hmem

/-- The order lists the tabs if it lists some of them, as many as there are. -/
theorem order_iff {order : List Text} (hids : ids.Nodup)
    (hnodup : order.Nodup) :
    ((∀ x ∈ order, x ∈ ids) ∧ order.length = ids.length) ↔
      ∀ x, x ∈ order ↔ x ∈ ids := by
  constructor
  · intro ⟨hsub, hlen⟩ x
    have hperm := (List.subperm_of_subset hnodup hsub).perm_of_length_le hlen.ge
    exact hperm.mem_iff
  · intro hmem
    have hperm := (List.perm_ext_iff_of_nodup hnodup hids).mpr hmem
    exact ⟨fun x hx => (hmem x).mp hx, hperm.length_eq⟩

/-- The walk over the panes, and what the active pane shows. -/
theorem panes_iff {s : SshWorkspaceSnapshot D} {tabIds : List Text}
    (hids : ∀ x, x ∈ tabIds ↔ x ∈ s.tabs.map normId) :
    let panes := collectPaneValidation tabIds s.paneRoot 0 ⟨[], [], []⟩
    let activeLeaf := s.paneRoot.leafById s.activePaneId
    (panes.errors = []
      ∧ panes.visibleTabs.length ≤ SSH_WORKSPACE_MAX_VISIBLE_PANES
      ∧ (¬ s.tabs.length = 0 ∨ s.paneRoot.isNull = true)
      ∧ (¬ s.tabs.length > 0 ∨ s.paneRoot.isNull = false)
      ∧ (if s.tabs.length = 0 then s.activeTabId = [] ∧ s.activePaneId = []
        else activeLeaf.isSome = true ∧ s.activeTabId ∈ tabIds
          ∧ activeLeaf = some s.activeTabId)) ↔
      NoPanes s ∨ PanesOk s := by
  intro panes activeLeaf
  constructor
  · intro ⟨herrors, hfew, hempty, hmissing, hactive⟩
    by_cases hnil : s.tabs = []
    · rw [hnil, List.length_nil, if_pos rfl] at hactive
      refine .inl ⟨hnil, ?_, hactive.1, hactive.2⟩
      rw [hnil] at hempty
      exact isNull_iff.mp (hempty.resolve_left (not_not.mpr rfl))
    · have hpos := List.length_pos_of_ne_nil hnil
      have hroot := hmissing.resolve_left (not_not.mpr hpos)
      rw [if_neg (by omega)] at hactive
      have hwalk := collected_of_errors (v := ⟨[], [], []⟩) hroot
        List.nodup_nil List.nodup_nil herrors
      have hvisible : panes.visibleTabs = s.paneRoot.shown := by
        show (collectPaneValidation _ _ _ _).visibleTabs = _
        rw [collect_of_collected hwalk]
        rfl
      refine .inr ⟨hwalk.shape.mono fun t ht =>
        (hids t).mp (hwalk.shape.shown_mem ht), hwalk.ids_nodup,
        hwalk.shown_nodup, ?_, ?_⟩
      · rw [hvisible, shown, List.length_map] at hfew
        exact hfew
      · exact (hwalk.shape.leafById_iff hwalk.ids_nodup).mp hactive.2.2
  · intro h
    rcases h with ⟨hnil, hroot, htab, hpane⟩ | h
    · have hpanes : panes = ⟨[], [], []⟩ := by
        show collectPaneValidation _ _ _ _ = _
        rw [hroot]
        rfl
      rw [hpanes, hnil, hroot]
      exact ⟨rfl, Nat.zero_le _, .inr rfl, .inl (lt_irrefl 0), htab, hpane⟩
    · have hpos := List.length_pos_of_ne_nil h.ne_nil
      have hshape : Shape tabIds s.paneRoot := h.shape.mono fun t ht =>
        (hids t).mpr (h.shape.shown_mem ht)
      have hwalk : Collected tabIds s.paneRoot 0 ⟨[], [], []⟩ := by
        refine ⟨hshape, ?_, h.ids, h.shown⟩
        have hheight := hshape.height_le
        have hfew := h.few
        unfold SSH_WORKSPACE_MAX_VISIBLE_PANES at hfew
        unfold SSH_WORKSPACE_MAX_PANE_DEPTH
        omega
      have hpanes : panes = collected s.paneRoot ⟨[], [], []⟩ :=
        collect_of_collected hwalk
      have hleaf : activeLeaf = some s.activeTabId :=
        (hshape.leafById_iff h.ids).mpr h.active
      rw [hpanes, if_neg (by omega), hleaf]
      refine ⟨rfl, ?_, .inl (by omega), .inr h.shape.ne_null, rfl, ?_, rfl⟩
      · show ([] ++ s.paneRoot.shown).length ≤ _
        rw [List.nil_append, shown, List.length_map]
        exact h.few
      · exact hshape.shown_mem (List.mem_map_of_mem h.active)

theorem validate_iff (s : SshWorkspaceSnapshot D) :
    validateSshWorkspaceSnapshot s = [] ↔ Valid s := by
  have htabs := (validateTabs_iff (D := D) s.tabs [] []).2
  have horder := fun tabIds =>
    (validateOrder_iff tabIds s.tabOrder [] []).2
  unfold validateSshWorkspaceSnapshot
  have hmet : TabsOk s.tabs → _ := fun h =>
    validateTabs_ids (D := D) [] h (fun _ _ => List.not_mem_nil)
      List.nodup_nil
  generalize validateTabs (D := D) s.tabs [] [] = met at htabs hmet ⊢
  obtain ⟨tabIds, tabErrors⟩ := met
  dsimp only at htabs hmet ⊢
  have hlisted := fun h1 h2 =>
    @validateOrder_ids tabIds s.tabOrder [] [] h1 h2
  replace horder := horder tabIds
  generalize validateOrder tabIds s.tabOrder [] [] = listed at horder hlisted ⊢
  obtain ⟨orderIds, orderErrors⟩ := listed
  dsimp only at horder hlisted ⊢
  have hactive : (if s.tabs.length = 0 then
        check (s.activeTabId = []) "active_tab"
          ++ check (s.activePaneId = []) "active_pane"
      else check (s.paneRoot.leafById s.activePaneId).isSome "active_pane"
        ++ check (s.activeTabId ∈ tabIds && decide
          (s.paneRoot.leafById s.activePaneId = some s.activeTabId))
          "active_tab") = [] ↔
      (if s.tabs.length = 0 then s.activeTabId = [] ∧ s.activePaneId = []
        else (s.paneRoot.leafById s.activePaneId).isSome = true
          ∧ s.activeTabId ∈ tabIds
          ∧ s.paneRoot.leafById s.activePaneId = some s.activeTabId) := by
    split
    · simp only [List.append_eq_nil_iff, check_eq_nil, decide_eq_true_eq]
    · simp only [List.append_eq_nil_iff, check_eq_nil, decide_eq_true_eq,
        Bool.and_eq_true]
  simp only [List.append_eq_nil_iff, hactive, check_eq_nil, decide_eq_true_eq,
    Bool.and_eq_true, Bool.or_eq_true, Bool.not_eq_true', Bool.and_eq_false_iff,
    decide_eq_false_iff_not, Bool.not_eq_false']
  constructor
  · rintro ⟨⟨⟨⟨⟨⟨⟨⟨⟨⟨⟨⟨hschema, hworkspace, hname⟩, hnumbers⟩, hfew⟩, htabErrors⟩,
      horderErrors⟩, hsize⟩, hpanes⟩, hlimit⟩, hempty⟩, hmissing⟩, hactive⟩,
      hpolicy⟩
    have htabsOk := (htabs.mp htabErrors).1
    obtain ⟨hnodup, hmem⟩ := hmet htabsOk
    simp only [List.not_mem_nil, false_or] at hmem
    obtain ⟨horderNodup, hall⟩ := horder.mp horderErrors
    rw [hlisted horderNodup hall, List.nil_append] at hsize
    have hlist := (order_iff hnodup horderNodup).mp
      ⟨fun x hx => (hall x hx).1, hsize⟩
    obtain ⟨⟨⟨⟨hinteger, hnonneg⟩, hcreated⟩, hupdated⟩, hle⟩ := hnumbers
    exact ⟨hschema, hworkspace, hname,
      ⟨hinteger, hnonneg, hcreated, hupdated, hle⟩, hfew, htabsOk,
      ⟨horderNodup, fun id => (hlist id).trans (hmem id)⟩,
      (panes_iff hmem).mp ⟨hpanes, hlimit, hempty, hmissing, hactive⟩, hpolicy⟩
  · intro h
    obtain ⟨hnodup, hmem⟩ := hmet h.tabs
    simp only [List.not_mem_nil, false_or] at hmem
    obtain ⟨hsub, hsize⟩ := (order_iff hnodup h.order.nodup).mpr
      fun id => (h.order.mem id).trans (hmem id).symm
    have hall : ∀ x ∈ s.tabOrder, x ∈ tabIds ∧ x ∉ [] :=
      fun x hx => ⟨hsub x hx, List.not_mem_nil⟩
    obtain ⟨hpanes, hlimit, hempty, hmissing, hactive⟩ :=
      (panes_iff hmem).mpr h.panes
    rw [hlisted h.order.nodup hall, List.nil_append]
    exact ⟨⟨⟨⟨⟨⟨⟨⟨⟨⟨⟨⟨h.schema, h.workspaceId, h.name⟩,
      ⟨⟨⟨h.numbers.integer, h.numbers.nonneg⟩, h.numbers.created⟩,
        h.numbers.updated⟩, h.numbers.le⟩, h.few⟩,
      htabs.mpr ⟨h.tabs, fun _ _ => List.not_mem_nil⟩⟩,
      horder.mpr ⟨h.order.nodup, hall⟩⟩, hsize⟩, hpanes⟩, hlimit⟩, hempty⟩,
      hmissing⟩, hactive⟩, h.policy⟩

end RemoteDesk.Ssh.Workspace
