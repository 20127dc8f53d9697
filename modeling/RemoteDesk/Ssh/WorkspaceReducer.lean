/-
The reducer of SSH workspaces keeps them valid, but for one arm.

`activateTab` puts a tab into the active pane without asking whether another
pane shows it. A tab then stands in two panes, the snapshot does not
validate, and every later action is refused. Every other arm keeps a valid
snapshot valid (`reduce_reduced`), given tab ids as they are normalised.
-/
import RemoteDesk.Ssh.WorkspaceValid

namespace RemoteDesk.Ssh.Workspace

open Lib SshPaneNode

variable {D : Type} [JsDouble D]

-- ================================= results

/-- What a result promises: it is valid, it is the snapshot itself unless
it says `changed`, and then it is one revision on and no earlier. -/
structure Reduced (s : SshWorkspaceSnapshot D)
    (r : SshWorkspaceReduceResult D) : Prop where
  valid : validateSshWorkspaceSnapshot r.snapshot = []
  same : r.error ≠ none ∨ r.changed = false → r.snapshot = s
  revision : r.changed = true → ∃ n : Nat, s.revision = JsNumber.ofInt n
    ∧ r.snapshot.revision = JsNumber.ofInt (n + 1)
  updated : r.changed = true → s.updatedAt ≤ r.snapshot.updatedAt

/-- The revision can still be counted. -/
def Counts (s : SshWorkspaceSnapshot D) : Prop :=
  ∃ n : Nat, n < 2 ^ 53 ∧ s.revision = JsNumber.ofInt n

/-- The time of the action, in whole milliseconds, is not behind the
snapshot's if the time itself is not. -/
def Onward (s : SshWorkspaceSnapshot D) (a : SshWorkspaceAction D) : Prop :=
  ∀ now, a.nowMs = some now → JsDouble.isFinite now = true →
    s.updatedAt ≤ now → s.updatedAt ≤ JsDouble.floor now

/-- A snapshot with everything but the numbers of `s`. -/
structure Next (s next : SshWorkspaceSnapshot D) : Prop where
  schema : next.schemaVersion = s.schemaVersion
  workspaceId : next.workspaceId = s.workspaceId
  createdAt : next.createdAt = s.createdAt
  name : normalizedText next.name 120 ≠ []
  few : next.tabs.length ≤ SSH_WORKSPACE_MAX_TABS
  tabs : TabsOk next.tabs
  order : OrderOk next
  panes : NoPanes next ∨ PanesOk next
  policy : next.reconnectPolicy = .never ∨ next.reconnectPolicy = .ask

variable {s : SshWorkspaceSnapshot D} {a : SshWorkspaceAction D}

/-- The panes are as good with other names and numbers around them. -/
theorem panes_congr {next : SshWorkspaceSnapshot D}
    (h : NoPanes s ∨ PanesOk s)
    (htabs : next.tabs.map normId = s.tabs.map normId)
    (hroot : next.paneRoot = s.paneRoot)
    (htab : next.activeTabId = s.activeTabId)
    (hpane : next.activePaneId = s.activePaneId) :
    NoPanes next ∨ PanesOk next := by
  rcases h with ⟨h1, h2, h3, h4⟩ | ⟨h1, h2, h3, h4, h5⟩
  · rw [h1] at htabs
    exact .inl ⟨List.map_eq_nil_iff.mp htabs, hroot.trans h2, htab.trans h3,
      hpane.trans h4⟩
  · refine .inr ⟨?_, ?_, ?_, ?_, ?_⟩
    · rw [htabs, hroot]
      exact h1
    · rw [hroot]
      exact h2
    · rw [hroot]
      exact h3
    · rw [hroot]
      exact h4
    · rw [hroot, htab, hpane]
      exact h5

theorem reduced_error (h : Valid s) (code : SshWorkspaceErrorCode)
    (message : String) : Reduced s (errorResult s a code message) :=
  ⟨(validate_iff s).mpr h, fun _ => rfl, fun h => (by cases h),
    fun h => (by cases h)⟩

theorem reduced_unchanged (h : Valid s) : Reduced s (unchangedResult s) :=
  ⟨(validate_iff s).mpr h, fun _ => rfl, fun h => (by cases h),
    fun h => (by cases h)⟩

theorem nextTimestamp_le (hon : Onward s a) :
    s.updatedAt ≤ nextTimestamp s a.nowMs := by
  unfold nextTimestamp
  split
  · rename_i now hnow
    split
    · rename_i hboth
      rw [Bool.and_eq_true, decide_eq_true_eq] at hboth
      exact hon now hnow hboth.1 hboth.2
    · exact JsDouble.le_succ _
  · exact JsDouble.le_succ _

theorem nextTimestamp_finite (h : JsDouble.isFinite s.updatedAt = true) :
    JsDouble.isFinite (nextTimestamp s a.nowMs) = true := by
  unfold nextTimestamp
  split
  · split
    · rename_i hboth
      rw [Bool.and_eq_true] at hboth
      exact JsDouble.finite_floor hboth.1
    · exact JsDouble.finite_succ h
  · exact JsDouble.finite_succ h

/-- A success is as valid as the snapshot it makes. -/
theorem reduced_success (h : Valid s) (hcounts : Counts s) (hon : Onward s a)
    {next : SshWorkspaceSnapshot D} (hnext : Next s next) :
    Reduced s (successResult s a next) := by
  obtain ⟨n, hn, hrevision⟩ := hcounts
  have hsucc : JsDouble.succ s.revision = JsNumber.ofInt ((n : Int) + 1) := by
    rw [hrevision]
    exact JsDouble.succ_ofInt n (by simpa using hn)
  refine ⟨(validate_iff _).mpr ?_, fun hsame => ?_, fun _ => ⟨n, hrevision, hsucc⟩,
    fun _ => nextTimestamp_le hon⟩
  · refine ⟨hnext.schema.trans h.schema, ?_, hnext.name, ⟨?_, ?_, ?_, ?_, ?_⟩,
      hnext.few, hnext.tabs, ⟨hnext.order.nodup, hnext.order.mem⟩, ?_,
      hnext.policy⟩
    · show validId next.workspaceId = true
      rw [hnext.workspaceId]
      exact h.workspaceId
    · show isInteger (JsDouble.succ s.revision) = true
      have hinteger := h.numbers.integer
      simp only [isInteger, Bool.and_eq_true, decide_eq_true_eq] at hinteger ⊢
      exact ⟨JsDouble.finite_succ hinteger.1, JsDouble.floor_succ hinteger.2⟩
    · show JsNumber.ofInt 0 ≤ JsDouble.succ s.revision
      exact h.numbers.nonneg.trans (JsDouble.le_succ _)
    · show JsDouble.isFinite next.createdAt = true
      rw [hnext.createdAt]
      exact h.numbers.created
    · exact nextTimestamp_finite h.numbers.updated
    · show next.createdAt ≤ nextTimestamp s a.nowMs
      rw [hnext.createdAt]
      exact h.numbers.le.trans (nextTimestamp_le hon)
    · exact panes_congr hnext.panes rfl rfl rfl rfl
  · rcases hsame with hsame | hsame
    · exact absurd rfl hsame
    · cases hsame

-- ==================================== tabs

omit [JsDouble D] in
theorem tabIndex_mem {tabId : Text} {index : Nat}
    (h : tabIndex s tabId = some index) :
    ∃ t, s.tabs[index]? = some t ∧ t ∈ s.tabs ∧ t.tabId = tabId := by
  obtain ⟨hlt, hid, -⟩ := List.findIdx?_eq_some_iff_getElem.mp h
  exact ⟨_, List.getElem?_eq_getElem hlt, List.getElem_mem hlt,
    of_decide_eq_true hid⟩

omit [JsDouble D] in
theorem tabIndex_none {tabId : Text} :
    tabIndex s tabId = none ↔ ∀ t ∈ s.tabs, t.tabId ≠ tabId := by
  rw [tabIndex, List.findIdx?_eq_none_iff]
  exact forall₂_congr fun t _ => decide_eq_false_iff_not

/-- What the validator asks of a tab and of what stands beside it. -/
def tabKey (t : SshWorkspaceTab) : Text × Text × SshWorkspaceTabKind :=
  (t.tabId, t.hostId, t.kind)

omit [JsDouble D] in
theorem normId_of_key {t u : SshWorkspaceTab} (h : tabKey t = tabKey u) :
    normId t = normId u := by
  rw [normId, normId, (Prod.mk.inj h).1]

theorem TabsOk.of_keys {l m : List SshWorkspaceTab} (h : TabsOk m)
    (hkeys : l.map tabKey = m.map tabKey) : TabsOk l := by
  induction l generalizing m with
  | nil => exact ⟨by simp, List.Pairwise.nil⟩
  | cons t l ih =>
    cases m with
    | nil => cases hkeys
    | cons u m =>
      obtain ⟨hkey, hkeys⟩ := List.cons.inj hkeys
      obtain ⟨hnormal, hall⟩ := List.forall_mem_cons.mp h.normal
      obtain ⟨hhead, hapart⟩ := List.pairwise_cons.mp h.apart
      have hrest := ih ⟨hall, hapart⟩ hkeys
      obtain ⟨h1, h23⟩ := Prod.mk.inj hkey
      obtain ⟨h2, h3⟩ := Prod.mk.inj h23
      refine ⟨List.forall_mem_cons.mpr ⟨?_, hrest.normal⟩,
        List.pairwise_cons.mpr ⟨fun v hv => ?_, hrest.apart⟩⟩
      · refine ⟨?_, ?_, ?_⟩
        · rw [normId_of_key hkey]
          exact hnormal.tabId
        · rw [h2]
          exact hnormal.hostId
        · rw [h3]
          exact hnormal.kind
      · obtain ⟨w, hw, hkeyw⟩ := List.mem_map.mp
          (hkeys ▸ List.mem_map_of_mem hv : tabKey v ∈ m.map tabKey)
        rw [normId_of_key hkey, ← (Prod.mk.inj hkeyw).1]
        exact hhead w hw

theorem map_modify {α β : Type} {f : α → α} {g : α → β}
    (h : ∀ x, g (f x) = g x) (l : List α) (index : Nat) :
    (l.modify index f).map g = l.map g := by
  induction l generalizing index with
  | nil => simp
  | cons x l ih =>
    cases index with
    | zero => simp [h]
    | succ index => simp [ih]

/-- Titles and pins do not matter to what is valid. -/
theorem next_modified (h : Valid s) {f : SshWorkspaceTab → SshWorkspaceTab}
    (hf : ∀ t, tabKey (f t) = tabKey t) (index : Nat) :
    Next s { s with tabs := s.tabs.modify index f } := by
  have hids : (s.tabs.modify index f).map normId = s.tabs.map normId :=
    map_modify (fun t => normId_of_key (hf t)) _ _
  refine ⟨rfl, rfl, rfl, h.name, ?_, h.tabs.of_keys (map_modify hf _ _),
    ⟨h.order.nodup, ?_⟩, panes_congr h.panes hids rfl rfl rfl, h.policy⟩
  · show (s.tabs.modify index f).length ≤ _
    rw [List.length_modify]
    exact h.few
  · show ∀ id, id ∈ s.tabOrder ↔ id ∈ (s.tabs.modify index f).map normId
    rw [hids]
    exact h.order.mem

/-- The order of the tabs may be any order of them. -/
theorem next_reordered (h : Valid s) {order : List Text}
    (hperm : order.Perm s.tabOrder) : Next s { s with tabOrder := order } :=
  ⟨rfl, rfl, rfl, h.name, h.few, h.tabs,
    ⟨hperm.nodup_iff.mpr h.order.nodup, fun id =>
      hperm.mem_iff.trans (h.order.mem id)⟩,
    panes_congr h.panes rfl rfl rfl rfl, h.policy⟩

/-- Fields that only the policy asks about. -/
theorem next_settings (h : Valid s) {policy : SshWorkspaceReconnectPolicy}
    (hpolicy : policy = .never ∨ policy = .ask) (sidebar inspector : Bool) :
    Next s { s with
      reconnectPolicy := policy
      sidebarVisible := sidebar
      inspectorVisible := inspector } :=
  ⟨rfl, rfl, rfl, h.name, h.few, h.tabs, ⟨h.order.nodup, h.order.mem⟩,
    panes_congr h.panes rfl rfl rfl rfl, hpolicy⟩

/-- Other panes for the same tabs. -/
theorem next_panes (h : Valid s) {root : SshPaneNode D}
    {paneId tabId : Text} (hpanes : PanesOk { s with
      paneRoot := root, activePaneId := paneId, activeTabId := tabId }) :
    Next s { s with
      paneRoot := root, activePaneId := paneId, activeTabId := tabId } :=
  ⟨rfl, rfl, rfl, h.name, h.few, h.tabs, ⟨h.order.nodup, h.order.mem⟩,
    .inr hpanes, h.policy⟩

theorem panesOk_of_tab (h : Valid s) {t : SshWorkspaceTab} (ht : t ∈ s.tabs) :
    PanesOk s :=
  h.panes.resolve_left fun hnone => by
    rw [hnone.tabs] at ht
    cases ht

theorem panesOk_of_root (h : Valid s) (hroot : s.paneRoot ≠ .null) :
    PanesOk s := h.panes.resolve_left fun hnone => hroot hnone.paneRoot

theorem ratioOk_clamp {ratio : D} (h : JsDouble.isFinite ratio = true) :
    RatioOk (clampRatio ratio) := by
  have h28 : JsDouble.tenths 2 ≤ (JsDouble.tenths 8 : D) :=
    JsDouble.tenths_mono (by decide)
  refine ⟨?_, le_max_left _ _, max_le h28 (min_le_left _ _)⟩
  unfold clampRatio
  rcases max_choice (JsDouble.tenths 2 : D) (min (JsDouble.tenths 8) ratio)
    with heq | heq
  · rw [heq]
    exact JsDouble.finite_tenths 2
  · rw [heq]
    rcases min_choice (JsDouble.tenths 8 : D) ratio with heq | heq
    · rw [heq]
      exact JsDouble.finite_tenths 8
    · rw [heq]
      exact h

/-- The first leaf becomes the active one. -/
theorem withFirstLeaf_eq {tabIds : List Text} {next : SshWorkspaceSnapshot D}
    (h : Shape tabIds next.paneRoot) (otherwise : Text) :
    ∃ p ∈ next.paneRoot.leaves, withFirstLeaf next otherwise
      = { next with activePaneId := p.1, activeTabId := p.2 } := by
  obtain ⟨p, l, hl⟩ := List.exists_cons_of_ne_nil h.leaves_ne_nil
  refine ⟨p, hl ▸ List.mem_cons_self, ?_⟩
  unfold withFirstLeaf
  rw [h.firstLeaf_eq, hl]
  rfl

omit [JsDouble D] in
/-- Trees of a snapshot's leaves show its tabs, each of them once. -/
theorem shown_sublist {root : SshPaneNode D} {l : List (Text × Text)}
    (hl : root.leaves.Sublist l) (hshown : (l.map Prod.snd).Nodup) :
    root.shown.Nodup := (hl.map Prod.snd).nodup hshown

/-- A tab that has an id, as it stands or normalised, has it both ways. -/
def Plain (s : SshWorkspaceSnapshot D) (tabId : Text) : Prop :=
  ∀ t ∈ s.tabs, t.tabId = tabId ∨ normId t = tabId → normId t = t.tabId

/-- Another pane than the active one shows the tab. -/
def ShownElsewhere (s : SshWorkspaceSnapshot D) (tabId : Text) : Prop :=
  ∃ p ∈ s.paneRoot.leaves, p.2 = tabId ∧ p.1 ≠ s.activePaneId

omit [JsDouble D] in
theorem listed_of_index {tabId : Text} (hplain : Plain s tabId) {index : Nat}
    (hindex : tabIndex s tabId = some index) :
    tabId ∈ s.tabs.map normId := by
  obtain ⟨t, -, ht, rfl⟩ := tabIndex_mem hindex
  exact List.mem_map.mpr ⟨t, ht, hplain t ht (.inl rfl)⟩

omit [JsDouble D] in
/-- What is read from a value. -/
theorem normalizedTab_spec {raw : Json D} {tab : SshWorkspaceTab}
    (h : normalizedTab raw = some tab) :
    validId tab.tabId = true ∧ validId tab.hostId = true
      ∧ (tab.kind = .terminal ∨ tab.kind = .sftp) := by
  unfold normalizedTab at h
  split at h
  swap
  · cases h
  dsimp only at h
  split at h
  · cases h
  rename_i hids
  simp only [Bool.or_eq_true, not_or, Bool.not_eq_true', Bool.not_eq_false]
    at hids
  split at h
  · obtain rfl := Option.some.inj h
    exact ⟨hids.1, hids.2, .inl rfl⟩
  split at h
  · obtain rfl := Option.some.inj h
    exact ⟨hids.1, hids.2, .inr rfl⟩
  · cases h

/-- A tab as `normalizedTab` makes it, its title and profile apart. -/
structure TidyTab (t : SshWorkspaceTab) : Prop where
  tabId : normId t = t.tabId
  hostId : normalizedText t.hostId 96 = t.hostId
  kind : t.kind = .terminal ∨ t.kind = .sftp

omit [JsDouble D] in
/-- It is a tab as it is normalised. -/
theorem tidy_of_normalizedTab {raw : Json D} {tab : SshWorkspaceTab}
    (h : normalizedTab raw = some tab) : Normalizes tab ∧ TidyTab tab := by
  obtain ⟨hid, hhost, hkind⟩ := normalizedTab_spec h
  have hid' : normId tab = tab.tabId :=
    normalizedText_validId hid (validId_iff.mp hid).2.1
  have hhost' := normalizedText_validId hhost (validId_iff.mp hhost).2.1
  refine ⟨⟨?_, ?_, ?_⟩, ⟨hid', hhost', hkind⟩⟩
  · rw [hid']
    exact hid
  · rw [hhost']
    exact hhost
  · rcases hkind with hkind | hkind
    · rw [hkind]
      exact .inl rfl
    · rw [hkind]
      exact .inr rfl

/-- Putting a tab into a pane is as good as no other pane showing it. -/
theorem panesOk_replaced (hp : PanesOk s) {paneId tabId tab : Text}
    (hpane : (paneId, tab) ∈ s.paneRoot.leaves)
    (hlisted : tabId ∈ s.tabs.map normId) :
    PanesOk { s with
        paneRoot := s.paneRoot.replaceLeafTab paneId tabId
        activePaneId := paneId
        activeTabId := tabId } ↔
      ∀ p ∈ s.paneRoot.leaves, p.2 = tabId → p.1 = paneId := by
  have hleaves : (s.paneRoot.replaceLeafTab paneId tabId).leaves = _ :=
    leaves_replaceLeafTab paneId tabId
  have hiff : ((s.paneRoot.leaves.map fun p =>
      (p.1, if p.1 = paneId then tabId else p.2)).map Prod.snd).Nodup ↔ _ :=
    nodup_replaced (hp.shape.leaves_sublist.nodup hp.ids) hp.shown
      (List.mem_map_of_mem (f := Prod.fst) hpane)
  rw [← hleaves] at hiff
  refine ⟨fun hnew => hiff.mp hnew.shown, fun honly => ?_⟩
  refine ⟨hp.shape.replaceLeafTab hlisted, ?_, hiff.mpr honly, ?_, ?_⟩
  · show (SshPaneNode.ids _).Nodup
    rw [ids_replaceLeafTab]
    exact hp.ids
  · show (SshPaneNode.leaves _).length ≤ _
    rw [hleaves, List.length_map]
    exact hp.few
  · show _ ∈ SshPaneNode.leaves _
    rw [hleaves]
    exact List.mem_map.mpr ⟨_, hpane, by rw [if_pos rfl]⟩

-- ================================ pane ids

theorem isIdUnit_digitCode {d : Nat} (h : d < 36) :
    isIdUnit (digitCode d) = true := by
  have hall : ∀ d < 36, isIdUnit (digitCode d) = true := by decide
  exact hall d h

theorem isIdUnit_numeral {base n u : Nat} (hb : 1 < base) (hle : base ≤ 36)
    (h : u ∈ numeral base n) : isIdUnit u = true := by
  obtain ⟨d, hd, rfl⟩ := mem_numeral hb h
  exact isIdUnit_digitCode (hd.trans_le hle)

theorem stableIdToken_spec (value : Text) :
    (stableIdToken value).length ≤ 6
      ∧ ∀ u ∈ stableIdToken value, isIdUnit u = true := by
  have hlt : ∀ (l : Text) (hash : Nat), hash < 2147483647 →
      l.foldl (fun hash u => (hash * 33 + u) % 2147483647) hash
        < 2147483647 := by
    intro l
    induction l with
    | nil => exact fun _ h => h
    | cons u l ih =>
      exact fun _ _ => ih _ (Nat.mod_lt _ (by norm_num))
  refine ⟨length_numeral_le (by norm_num) (by norm_num)
    ((hlt value 5381 (by norm_num)).trans (by norm_num)), fun u hu => ?_⟩
  exact isIdUnit_numeral (by norm_num) (le_refl _) hu

/-- A generated id is short enough to take a suffix. -/
theorem generatedPaneBaseId_spec {workspaceId : Text}
    (h : validId workspaceId = true) :
    (generatedPaneBaseId workspaceId).length ≤ 72
      ∧ generatedPaneBaseId workspaceId ≠ []
      ∧ ∀ u ∈ generatedPaneBaseId workspaceId, isIdUnit u = true := by
  obtain ⟨htoken, hunits⟩ := stableIdToken_spec workspaceId
  have htrim : Sftp.trim workspaceId = workspaceId := by
    have hlong := normalizedText_validId h
      (Nat.le_max_left workspaceId.length (Sftp.trim workspaceId).length)
    rwa [normalizedText, List.take_of_length_le (Nat.le_max_right _ _)]
      at hlong
  unfold generatedPaneBaseId normalizedText
  rw [htrim]
  refine ⟨?_, ?_, fun u hu => ?_⟩
  · have hcode : (codes ":pane:").length = 6 := rfl
    have htake := List.length_take_le 60 workspaceId
    rw [List.length_append, List.length_append, hcode]
    omega
  · intro hnil
    have hcode := (List.append_eq_nil_iff.mp
      (List.append_eq_nil_iff.mp hnil).1).2
    cases hcode
  · rw [List.mem_append, List.mem_append] at hu
    rcases hu with (hu | hu) | hu
    · exact (validId_iff.mp h).2.2 u (List.mem_of_mem_take hu)
    · revert u
      decide
    · exact hunits u hu

omit [JsDouble D] in
theorem freeSuffix_le (root : SshPaneNode D) (base : Text) (n suffix : Nat) :
    freeSuffix root base n suffix ≤ suffix + n := by
  induction n generalizing suffix with
  | zero => exact le_refl _
  | succ n ih =>
    rw [freeSuffix]
    split
    · exact Nat.le_add_right _ _
    · exact (ih (suffix + 1)).trans (by omega)

omit [JsDouble D] in
theorem size_eq (root : SshPaneNode D) : root.size = root.ids.length := by
  induction root with
  | null => rfl
  | node nodeId kind tabId direction ratio first second ih ih' =>
    rw [size, ids, List.length_cons, List.length_append, ih, ih']

omit [JsDouble D] in
/-- The suffixes that are tried are more than there are nodes: one of them is
free. -/
theorem freeSuffix_free (root : SshPaneNode D) (base : Text) {n : Nat}
    (suffix : Nat) (taken : List Text) (htaken : taken.Nodup)
    (hsub : ∀ id ∈ taken, id ∈ root.ids)
    (hbefore : ∀ k, suffix ≤ k → base ++ 58 :: numeral 10 k ∉ taken)
    (hn : root.ids.length < taken.length + n) :
    base ++ 58 :: numeral 10 (freeSuffix root base n suffix) ∉ root.ids := by
  induction n generalizing suffix taken with
  | zero =>
    have hle := (List.subperm_of_subset htaken hsub).length_le
    omega
  | succ n ih =>
    rw [freeSuffix]
    split
    · rename_i hfree
      exact paneById_isNull.mp hfree
    · rename_i hused
      rw [paneById_isNull, not_not] at hused
      refine ih (suffix + 1) ((base ++ 58 :: numeral 10 suffix) :: taken)
        (List.nodup_cons.mpr ⟨hbefore suffix (le_refl _), htaken⟩) ?_ ?_ ?_
      · intro id hid
        rcases List.mem_cons.mp hid with rfl | hid
        · exact hused
        · exact hsub id hid
      · intro k hk hmem
        rcases List.mem_cons.mp hmem with heq | hmem
        · have hcons := List.append_cancel_left heq
          have hnum := numeral_inj (by norm_num) (by norm_num)
            (List.cons.inj hcons).2
          omega
        · exact hbefore k (by omega) hmem
      · rw [List.length_cons]
        omega

omit [JsDouble D] in
/-- The search for a pane id ends with one that no pane has. -/
theorem uniquePaneId_free (s : SshWorkspaceSnapshot D) :
    uniquePaneId s ∉ s.paneRoot.ids := by
  unfold uniquePaneId
  dsimp only
  split
  · rename_i hfree
    exact paneById_isNull.mp hfree
  · refine freeSuffix_free _ _ 2 [] List.nodup_nil (by simp) (by simp) ?_
    rw [size_eq, List.length_nil]
    omega

theorem SshPaneNode.Shape.ids_le {tabIds : List Text} {root : SshPaneNode D}
    (h : Shape tabIds root) : root.ids.length < 2 * root.leaves.length := by
  induction h with
  | leaf => exact Nat.one_lt_two
  | split _ _ _ _ _ ih ih' =>
    rw [ids, leaves_split, List.length_cons, List.length_append,
      List.length_append]
    omega

theorem validId_uniquePaneId (h : Valid s) (hp : PanesOk s) :
    validId (uniquePaneId s) = true := by
  obtain ⟨hlen, hne, hunits⟩ := generatedPaneBaseId_spec h.workspaceId
  unfold uniquePaneId
  dsimp only
  split
  · exact validId_iff.mpr ⟨hne, hlen.trans (by norm_num), hunits⟩
  generalize hsuffix : freeSuffix s.paneRoot
    (generatedPaneBaseId s.workspaceId) (s.paneRoot.size + 1) 2 = suffix
  have hle := freeSuffix_le s.paneRoot (generatedPaneBaseId s.workspaceId)
    (s.paneRoot.size + 1) 2
  have hids := hp.shape.ids_le
  have hfew := hp.few
  unfold SSH_WORKSPACE_MAX_VISIBLE_PANES at hfew
  rw [hsuffix, size_eq] at hle
  have hnumeral : (numeral 10 suffix).length ≤ 2 :=
    length_numeral_le (by norm_num) (by norm_num) (by omega)
  refine validId_iff.mpr ⟨?_, ?_, fun u hu => ?_⟩
  · simp
  · rw [List.length_append, List.length_cons]
    omega
  · rcases List.mem_append.mp hu with hu | hu
    · exact hunits u hu
    · rcases List.mem_cons.mp hu with rfl | hu
      · decide
      · exact isIdUnit_numeral (by norm_num) (by norm_num) hu

-- ==================================== arms

section Arms

variable (h : Valid s) (hcounts : Counts s) (hon : Onward s a)

include h hcounts hon

theorem renameWorkspace_reduced : Reduced s (renameWorkspace s a) := by
  unfold renameWorkspace
  dsimp only
  split
  · exact reduced_error h _ _
  rename_i hname
  split
  · exact reduced_unchanged h
  refine reduced_success h hcounts hon ⟨rfl, rfl, rfl, ?_, h.few, h.tabs,
    ⟨h.order.nodup, h.order.mem⟩, panes_congr h.panes rfl rfl rfl rfl,
    h.policy⟩
  refine normalizedText_normalizedText_ne_nil ?_ (by norm_num)
  exact fun hnil => hname (List.length_eq_zero_iff.mpr hnil)

theorem reorderTab_reduced : Reduced s (reorderTab s a) := by
  unfold reorderTab
  dsimp only
  split
  · exact reduced_error h _ _
  rename_i hin
  rw [not_not] at hin
  have hperm := (List.perm_cons_erase hin).symm
  split
  · exact reduced_unchanged h
  split
  · refine reduced_success h hcounts hon (next_reordered h ?_)
    exact (List.perm_append_singleton _ _).trans hperm
  split
  · exact reduced_error h _ _
  · refine reduced_success h hcounts hon (next_reordered h ?_)
    exact (List.perm_insertIdx _ _ List.idxOf_le_length).trans hperm

theorem setTabPinned_reduced : Reduced s (setTabPinned s a) := by
  unfold setTabPinned
  split
  · split
    · exact reduced_unchanged h
    · refine reduced_success h hcounts hon (next_modified h ?_ _)
      exact fun _ => rfl
  · exact reduced_error h _ _

theorem renameTab_reduced : Reduced s (renameTab s a) := by
  unfold renameTab
  split
  · dsimp only
    split
    · exact reduced_unchanged h
    · refine reduced_success h hcounts hon (next_modified h ?_ _)
      exact fun _ => rfl
  · exact reduced_error h _ _

theorem setReconnectPolicy_reduced : Reduced s (setReconnectPolicy s a) := by
  unfold setReconnectPolicy
  split
  · exact reduced_success h hcounts hon (next_settings h (.inl rfl) _ _)
  · exact reduced_success h hcounts hon (next_settings h (.inr rfl) _ _)
  · exact reduced_error h _ _

theorem setVisible_reduced {next : Bool → SshWorkspaceSnapshot D}
    (hnext : ∀ visible, Next s (next visible)) :
    Reduced s (setVisible s a next) := by
  unfold setVisible
  split
  · exact reduced_error h _ _
  · exact reduced_success h hcounts hon (hnext _)

theorem focusPane_reduced : Reduced s (focusPane s a) := by
  unfold focusPane
  dsimp only
  split
  · exact reduced_error h _ _
  rename_i tabId hleaf
  have hroot : s.paneRoot ≠ .null := by
    intro hnull
    rw [hnull] at hleaf
    cases hleaf
  obtain ⟨hshape, hids, hshown, hfew, -⟩ := panesOk_of_root h hroot
  exact reduced_success h hcounts hon (next_panes h
    ⟨hshape, hids, hshown, hfew, (hshape.leafById_iff hids).mp hleaf⟩)

theorem setSplitRatio_reduced : Reduced s (setSplitRatio s a) := by
  unfold setSplitRatio
  dsimp only
  split
  · rename_i ratio hpane hratio
    split
    · exact reduced_error h _ _
    rename_i hfinite
    have hroot : s.paneRoot ≠ .null := by
      intro hnull
      rw [hnull] at hpane
      cases hpane
    obtain ⟨hshape, hids, hshown, hfew, hactive⟩ := panesOk_of_root h hroot
    have hclamp : RatioOk (clampRatio ratio) :=
      ratioOk_clamp (by simpa using hfinite)
    have hupdated : Shape _ (s.paneRoot.updateSplitRatio
        (actionText a.paneId 96) (clampRatio ratio)) ∧ _ ∧ _ :=
      hshape.updateSplitRatio hclamp
    obtain ⟨hshape', hids', hleaves⟩ := hupdated
    refine reduced_success h hcounts hon (next_panes h
      ⟨hshape', hids'.symm ▸ hids, ?_, ?_, ?_⟩)
    · show (SshPaneNode.shown _).Nodup
      rw [shown, hleaves]
      exact hshown
    · show (SshPaneNode.leaves _).length ≤ _
      rw [hleaves]
      exact hfew
    · show _ ∈ SshPaneNode.leaves _
      rw [hleaves]
      exact hactive
  · exact reduced_error h _ _

theorem mergePane_reduced : Reduced s (mergePane s a) := by
  unfold mergePane
  dsimp only
  split
  · exact reduced_error h _ _
  rename_i hleaf
  split
  · exact reduced_error h _ _
  rename_i hcount
  generalize actionText a.paneId 96 = paneId at hleaf ⊢
  have hroot : s.paneRoot ≠ .null := by
    intro hnull
    rw [hnull] at hleaf
    exact hleaf rfl
  obtain ⟨hshape, hids, hshown, hfew, -⟩ := panesOk_of_root h hroot
  rw [hshape.visiblePaneCount_eq] at hcount
  obtain ⟨hleaves, hsub, hshape'⟩ :=
    hshape.removeLeaves fun nodeId _ => nodeId = paneId
  -- of two leaves one has another id
  have hrest : (s.paneRoot.removeLeafById paneId).isNull = false := by
    by_contra hnull
    rw [Bool.not_eq_false, isNull_iff] at hnull
    unfold removeLeafById at hnull
    rw [hnull] at hleaves
    have hall : ∀ p ∈ s.paneRoot.leaves, p.1 = paneId := by
      intro p hp
      by_contra hne
      have hmem : p ∈ ([] : List (Text × Text)) := by
        rw [show ([] : List (Text × Text)) = _ from hleaves]
        exact List.mem_filter.mpr ⟨hp, by simp [hne]⟩
      cases hmem
    have hkeys := (hshape.leaves_sublist.nodup hids)
    match hl : s.paneRoot.leaves with
    | [] => exact hshape.leaves_ne_nil hl
    | [_] =>
      rw [hl] at hcount
      exact hcount (le_refl 1)
    | p :: q :: l =>
      rw [hl] at hall hkeys
      have hp := hall p List.mem_cons_self
      have hq := hall q (List.mem_cons_of_mem _ List.mem_cons_self)
      simp [hp, hq] at hkeys
  have hnew := hshape' hrest
  obtain ⟨p, hp, heq⟩ := @withFirstLeaf_eq D _ _
    { s with paneRoot := s.paneRoot.removeLeafById paneId } hnew []
  rw [heq]
  have hsublist : (s.paneRoot.removeLeafById paneId).leaves.Sublist
      s.paneRoot.leaves := by
    unfold removeLeafById
    rw [hleaves]
    exact List.filter_sublist
  exact reduced_success h hcounts hon (next_panes h
    ⟨hnew, hsub.nodup hids, shown_sublist hsublist hshown,
      hsublist.length_le.trans hfew, hp⟩)

theorem splitPane_reduced : Reduced s (splitPane s a) := by
  unfold splitPane
  dsimp only
  split
  swap
  · exact reduced_error h _ _
  rename_i direction ratio hdirection hratio
  generalize actionText a.tabId 96 = tabId
  generalize actionText a.paneId 96 = paneId
  generalize actionText a.splitNodeId 96 = splitNodeId
  generalize actionText a.newLeafId 96 = newLeafId
  split
  · exact reduced_error h _ _
  rename_i hparams
  simp only [Bool.or_eq_true, Bool.not_eq_true', not_or, Bool.not_eq_false,
    Bool.and_eq_true, decide_eq_true_eq, not_and_or, not_not] at hparams
  obtain ⟨⟨⟨⟨⟨-, hsplitId⟩, hleafId⟩, htabId⟩, hdir⟩, hfinite⟩ := hparams
  split
  · exact reduced_error h _ _
  rename_i hfound
  rw [not_or, Option.isNone_iff_eq_none, Option.isNone_iff_eq_none] at hfound
  split
  · exact reduced_error h _ _
  rename_i hfresh
  simp only [Bool.not_eq_true', not_or, Bool.not_eq_false] at hfresh
  obtain ⟨hfreshSplit, hfreshLeaf, hne⟩ := hfresh
  rw [paneById_isNull] at hfreshSplit hfreshLeaf
  split
  · exact reduced_error h _ _
  rename_i hunseen
  split
  · exact reduced_error h _ _
  rename_i hroom
  have hroot : s.paneRoot ≠ .null := by
    intro hnull
    rw [hnull] at hfound
    exact hfound.1 rfl
  obtain ⟨hshape, hids, hshown, -, -⟩ := panesOk_of_root h hroot
  rw [hshape.paneContainsTab_iff] at hunseen
  rw [hshape.visiblePaneCount_eq, ge_iff_le, not_le] at hroom
  obtain ⟨ownTab, hown⟩ := Option.ne_none_iff_exists'.mp hfound.1
  have hin := (hshape.leafById_iff hids).mp hown
  obtain ⟨index, hindex⟩ := Option.ne_none_iff_exists'.mp hfound.2
  obtain ⟨t, -, ht, htabs⟩ := tabIndex_mem hindex
  have hlisted : tabId ∈ s.tabs.map normId := by
    refine List.mem_map.mpr ⟨t, ht, ?_⟩
    rw [normId, htabs]
    exact normalizedText_validId htabId (validId_iff.mp htabId).2.1
  have hkeys := hshape.leaves_sublist.nodup hids
  have hnew : Shape _ (s.paneRoot.replaceLeafWithSplit paneId splitNodeId
      newLeafId tabId direction (clampRatio ratio)) :=
    hshape.replaceLeafWithSplit hsplitId hleafId hlisted hdir
      (ratioOk_clamp hfinite)
  have hperm : (s.paneRoot.replaceLeafWithSplit paneId splitNodeId
      newLeafId tabId direction (clampRatio ratio)).leaves.Perm _ ∧ _ :=
    hshape.replaceLeafWithSplit_perm
  rw [filter_key hkeys hin] at hperm
  obtain ⟨hleaves, hidsNew⟩ := hperm
  refine reduced_success h hcounts hon (next_panes h ⟨hnew, ?_, ?_, ?_, ?_⟩)
  · refine hidsNew.nodup_iff.mpr (List.nodup_append.mpr ⟨hids, ?_, ?_⟩)
    · simp [hne]
    · intro x hx y hy hxy
      simp only [List.flatMap_cons, List.flatMap_nil, List.append_nil,
        List.mem_cons, List.not_mem_nil, or_false] at hy
      rcases hy with rfl | rfl
      · exact hfreshSplit (hxy ▸ hx)
      · exact hfreshLeaf (hxy ▸ hx)
  · refine (hleaves.map Prod.snd).nodup_iff.mpr ?_
    rw [List.map_append]
    refine List.nodup_append.mpr ⟨hshown, List.nodup_singleton _, ?_⟩
    intro x hx y hy hxy
    obtain rfl : y = tabId := List.mem_singleton.mp hy
    exact hunseen (hxy ▸ hx)
  · show (SshPaneNode.leaves _).length ≤ _
    rw [hleaves.length_eq, List.length_append]
    exact hroom
  · refine hleaves.mem_iff.mpr (List.mem_append_right _ ?_)
    exact List.mem_singleton.mpr rfl

theorem activateTab_reduced
    (hplain : Plain s (actionText a.tabId 96))
    (hone : ¬ ShownElsewhere s (actionText a.tabId 96)) :
    Reduced s (activateTab s a) := by
  unfold activateTab
  dsimp only
  generalize actionText a.tabId 96 = tabId at hplain hone ⊢
  split
  · exact reduced_error h _ _
  rename_i hfound
  rw [Option.isNone_iff_eq_none] at hfound
  obtain ⟨index, hindex⟩ := Option.ne_none_iff_exists'.mp hfound
  obtain ⟨t, -, ht, -⟩ := tabIndex_mem hindex
  have hp := panesOk_of_tab h ht
  have hid := hp.shape.valid_id (hp.shape.leaves_sublist.subset
    (List.mem_map_of_mem hp.active))
  rw [if_pos (validId_iff.mp hid).1]
  refine reduced_success h hcounts hon (next_panes h ?_)
  refine (panesOk_replaced hp hp.active (listed_of_index hplain hindex)).mpr ?_
  intro p hmem htab
  by_contra hne
  exact hone ⟨p, hmem, htab, hne⟩

theorem moveTab_reduced (hplain : Plain s (actionText a.tabId 96)) :
    Reduced s (moveTab s a) := by
  unfold moveTab
  dsimp only
  generalize actionText a.tabId 96 = tabId at hplain ⊢
  generalize actionText a.paneId 96 = paneId
  split
  swap
  · exact reduced_error h _ _
  rename_i targetTab index hleaf hindex
  split
  · exact reduced_unchanged h
  rename_i hsource
  have hroot : s.paneRoot ≠ .null := by
    intro hnull
    rw [hnull] at hleaf
    cases hleaf
  have hp := panesOk_of_root h hroot
  have hlisted := listed_of_index hplain hindex
  have htarget := (hp.shape.leafById_iff hp.ids).mp hleaf
  have hkeys := hp.shape.leaves_sublist.nodup hp.ids
  rw [hp.shape.findSource_eq, if_neg (not_not.mpr rfl)] at hsource ⊢
  cases hfind : s.paneRoot.leaves.find? (fun p => p.2 = tabId) with
  | none =>
    -- no pane shows the tab: it takes the place of what is there
    rw [Option.map_none, Option.getD_none, if_neg (not_not.mpr rfl)]
    refine reduced_success h hcounts hon (next_panes h ?_)
    refine (panesOk_replaced hp htarget hlisted).mpr fun p hmem htab => ?_
    exact absurd htab (by simpa using List.find?_eq_none.mp hfind p hmem)
  | some q =>
    have hq := List.mem_of_find?_eq_some hfind
    have hqtab : q.2 = tabId := by
      simpa using List.find?_some hfind
    rw [hfind, Option.map_some, Option.getD_some] at hsource
    have hqid := hp.shape.valid_id (hp.shape.leaves_sublist.subset
      (List.mem_map_of_mem hq))
    rw [Option.map_some, Option.getD_some, if_pos (validId_iff.mp hqid).1]
    have hleaves : ((s.paneRoot.replaceLeafTab paneId tabId).replaceLeafTab
        q.1 targetTab).leaves = s.paneRoot.leaves.map fun p =>
          (p.1, if p.1 = q.1 then targetTab
            else if p.1 = paneId then tabId else p.2) := by
      rw [leaves_replaceLeafTab, leaves_replaceLeafTab, List.map_map]
      rfl
    have hswap := nodup_swapped hkeys hp.shown htarget hq hsource
    dsimp only at hswap
    rw [hqtab, ← hleaves] at hswap
    refine reduced_success h hcounts hon (next_panes h
      ⟨(hp.shape.replaceLeafTab hlisted).replaceLeafTab ?_, ?_, hswap, ?_, ?_⟩)
    · exact hp.shape.shown_mem (List.mem_map_of_mem htarget)
    · show (SshPaneNode.ids _).Nodup
      rw [ids_replaceLeafTab, ids_replaceLeafTab]
      exact hp.ids
    · show (SshPaneNode.leaves _).length ≤ _
      rw [hleaves, List.length_map]
      exact hp.few
    · show _ ∈ SshPaneNode.leaves _
      rw [hleaves]
      exact List.mem_map.mpr ⟨_, htarget, by
        rw [if_neg (Ne.symm hsource), if_pos rfl]⟩

theorem openTab_reduced (hplain : ∀ raw tab, a.tab = some raw →
      normalizedTab raw = some tab → Plain s tab.tabId) :
    Reduced s (openTab s a) := by
  unfold openTab
  split
  · exact reduced_error h _ _
  rename_i raw hraw
  split
  · exact reduced_error h _ _
  rename_i tab htab
  replace hplain := hplain raw tab hraw htab
  obtain ⟨hnormal, htidy⟩ := tidy_of_normalizedTab htab
  have hnormId := htidy.tabId
  split
  · exact reduced_error h _ _
  rename_i hnew
  rw [Option.not_isSome_iff_eq_none, tabIndex_none] at hnew
  split
  · exact reduced_error h _ _
  rename_i hroom
  have hunlisted : tab.tabId ∉ s.tabs.map normId := by
    intro hin
    obtain ⟨t, ht, hid⟩ := List.mem_map.mp hin
    exact hnew t ht ((hplain t ht (.inr hid)).symm.trans hid)
  have htabs : TabsOk (s.tabs ++ [tab]) := by
    refine ⟨?_, List.pairwise_append.mpr ⟨h.tabs.apart,
      List.pairwise_singleton _ _, fun t ht u hu heq => ?_⟩⟩
    · intro t ht
      rcases List.mem_append.mp ht with ht | ht
      · exact h.tabs.normal t ht
      · rw [List.mem_singleton.mp ht]
        exact hnormal
    · rw [List.mem_singleton.mp hu] at heq
      exact hunlisted (List.mem_map.mpr ⟨t, ht, heq⟩)
  have hids : (s.tabs ++ [tab]).map normId = s.tabs.map normId ++ [tab.tabId] := by
    rw [List.map_append, List.map_singleton, hnormId]
  have horder : (s.tabOrder ++ [tab.tabId]).Nodup :=
    List.nodup_append.mpr ⟨h.order.nodup, List.nodup_singleton _,
      fun x hx y hy hxy => hunlisted ((h.order.mem _).mp
        (List.mem_singleton.mp hy ▸ hxy ▸ hx))⟩
  have hmem : ∀ id, id ∈ s.tabOrder ++ [tab.tabId]
      ↔ id ∈ (s.tabs ++ [tab]).map normId := by
    intro id
    rw [hids, List.mem_append, List.mem_append, h.order.mem]
  have hfew : (s.tabs ++ [tab]).length ≤ SSH_WORKSPACE_MAX_TABS := by
    rw [List.length_append, List.length_singleton]
    omega
  have hnext : ∀ root paneId, PanesOk { s with
        tabs := s.tabs ++ [tab], tabOrder := s.tabOrder ++ [tab.tabId]
        paneRoot := root, activePaneId := paneId, activeTabId := tab.tabId } →
      Next s { s with
        tabs := s.tabs ++ [tab], tabOrder := s.tabOrder ++ [tab.tabId]
        paneRoot := root, activePaneId := paneId, activeTabId := tab.tabId } :=
    fun root paneId hp => ⟨rfl, rfl, rfl, h.name, hfew, htabs, ⟨horder, hmem⟩,
      .inr hp, h.policy⟩
  have hlisted : tab.tabId ∈ (s.tabs ++ [tab]).map normId := by
    rw [hids]
    exact List.mem_append_right _ List.mem_cons_self
  dsimp only
  split
  · split
    · exact reduced_error h _ _
    rename_i hpane
    rw [Bool.not_eq_true', Bool.not_eq_false] at hpane
    refine reduced_success h hcounts hon (hnext _ _
      ⟨.leaf hpane hlisted, List.nodup_singleton _, List.nodup_singleton _,
        ?_, List.mem_cons_self⟩)
    show 1 ≤ SSH_WORKSPACE_MAX_VISIBLE_PANES
    decide
  rename_i hroot
  have hp := panesOk_of_root h fun hnull => hroot (isNull_iff.mpr hnull)
  have hid := hp.shape.valid_id (hp.shape.leaves_sublist.subset
    (List.mem_map_of_mem hp.active))
  rw [if_pos (validId_iff.mp hid).1]
  -- the tree shows the tabs from before, which are listed still
  have hwider : PanesOk { s with tabs := s.tabs ++ [tab] } := by
    refine ⟨hp.shape.mono fun t ht => ?_, hp.ids, hp.shown, hp.few, hp.active⟩
    show t ∈ (s.tabs ++ [tab]).map normId
    rw [hids]
    exact List.mem_append_left _ (hp.shape.shown_mem ht)
  have hreplaced := (panesOk_replaced hwider hp.active hlisted).mpr
    fun p hmem heq => absurd
      (hp.shape.shown_mem (List.mem_map.mpr ⟨p, hmem, heq⟩)) hunlisted
  exact reduced_success h hcounts hon (hnext _ _
    ⟨hreplaced.shape, hreplaced.ids, hreplaced.shown, hreplaced.few,
      hreplaced.active⟩)

theorem closeTab_reduced (hplain : Plain s (actionText a.tabId 96)) :
    Reduced s (closeTab s a) := by
  unfold closeTab
  dsimp only
  generalize actionText a.tabId 96 = tabId at hplain ⊢
  split
  · exact reduced_error h _ _
  rename_i index hindex
  obtain ⟨t, hget, ht, hid⟩ := tabIndex_mem hindex
  have hp := panesOk_of_tab h ht
  have htid : normId t = tabId := (hplain t ht (.inl hid)).trans hid
  obtain ⟨hlt, hgetElem⟩ := List.getElem?_eq_some_iff.mp hget
  have hsplit : s.tabs = s.tabs.take index ++ t :: s.tabs.drop (index + 1) := by
    rw [← hgetElem, List.getElem_cons_drop, List.take_append_drop]
  have herase : s.tabs.eraseIdx index
      = s.tabs.take index ++ s.tabs.drop (index + 1) :=
    List.eraseIdx_eq_take_drop_succ _ _
  have hsub : (s.tabs.eraseIdx index).Sublist s.tabs :=
    List.eraseIdx_sublist _ _
  -- no other tab has the id that goes
  have hapart := h.tabs.apart
  rw [hsplit, List.pairwise_append] at hapart
  obtain ⟨-, hright, hcross⟩ := hapart
  have hothers : ∀ u ∈ s.tabs.eraseIdx index, normId u ≠ tabId := by
    intro u hu huid
    have huplain := hplain u (hsub.subset hu) (.inr huid)
    rw [herase, List.mem_append] at hu
    rcases hu with hu | hu
    · exact hcross u hu t List.mem_cons_self (huid.trans hid.symm)
    · exact (List.pairwise_cons.mp hright).1 u hu
        (htid.trans (huid.symm.trans huplain))
  have hids : ∀ x, x ∈ (s.tabs.eraseIdx index).map normId
      ↔ x ≠ tabId ∧ x ∈ s.tabs.map normId := by
    intro x
    constructor
    · intro hx
      obtain ⟨u, hu, rfl⟩ := List.mem_map.mp hx
      exact ⟨hothers u hu, List.mem_map_of_mem (hsub.subset hu)⟩
    · intro ⟨hne, hx⟩
      rw [hsplit, List.map_append, List.map_cons, List.mem_append,
        List.mem_cons, htid] at hx
      rw [herase, List.map_append, List.mem_append]
      exact hx.imp_right fun hx => hx.resolve_left hne
  have htabs : TabsOk (s.tabs.eraseIdx index) :=
    ⟨fun u hu => h.tabs.normal u (hsub.subset hu), h.tabs.apart.sublist hsub⟩
  have horder : (s.tabOrder.erase tabId).Nodup := h.order.nodup.erase tabId
  have hmem : ∀ id, id ∈ s.tabOrder.erase tabId
      ↔ id ∈ (s.tabs.eraseIdx index).map normId := by
    intro id
    rw [h.order.nodup.mem_erase_iff, hids, h.order.mem]
  have hfew := hsub.length_le.trans h.few
  split
  · rename_i hnil
    refine reduced_success h hcounts hon ⟨rfl, rfl, rfl, h.name, hfew, htabs,
      ⟨horder, hmem⟩, .inl ⟨List.length_eq_zero_iff.mp hnil, rfl, rfl, rfl⟩,
      h.policy⟩
  rename_i hsome
  obtain ⟨hleaves, hnodes, hshape⟩ :=
    hp.shape.removeLeaves fun _ ownTab => ownTab = tabId
  have hsublist : (s.paneRoot.removeLeavesByTab tabId).leaves.Sublist
      s.paneRoot.leaves := by
    unfold removeLeavesByTab
    rw [hleaves]
    exact List.filter_sublist
  have hfirst : (s.tabOrder.erase tabId).headD []
      ∈ (s.tabs.eraseIdx index).map normId := by
    rw [← hmem]
    cases horderNil : s.tabOrder.erase tabId with
    | nil =>
      obtain ⟨u, hu⟩ := List.exists_mem_of_ne_nil _
        (fun hnil => hsome (List.length_eq_zero_iff.mpr hnil))
      have hin := (hmem (normId u)).mpr (List.mem_map_of_mem hu)
      rw [horderNil] at hin
      cases hin
    | cons x l => exact List.mem_cons_self
  have hnext : ∀ root, Shape ((s.tabs.eraseIdx index).map normId) root →
      root.ids.Nodup → root.shown.Nodup →
      root.leaves.length ≤ SSH_WORKSPACE_MAX_VISIBLE_PANES → ∀ otherwise,
      Next s (withFirstLeaf { s with
        tabs := s.tabs.eraseIdx index, tabOrder := s.tabOrder.erase tabId
        paneRoot := root } otherwise) := by
    intro root hroot hrootIds hrootShown hrootFew otherwise
    obtain ⟨p, hpmem, heq⟩ := @withFirstLeaf_eq D _ _ { s with
      tabs := s.tabs.eraseIdx index, tabOrder := s.tabOrder.erase tabId
      paneRoot := root } hroot otherwise
    rw [heq]
    exact ⟨rfl, rfl, rfl, h.name, hfew, htabs, ⟨horder, hmem⟩,
      .inr ⟨hroot, hrootIds, hrootShown, hrootFew, hpmem⟩, h.policy⟩
  by_cases hnull : (s.paneRoot.removeLeavesByTab tabId).isNull = true
  · rw [if_pos hnull]
    refine reduced_success h hcounts hon (hnext _
      (.leaf (validId_uniquePaneId h hp) hfirst) (List.nodup_singleton _)
      (List.nodup_singleton _) ?_ _)
    show 1 ≤ SSH_WORKSPACE_MAX_VISIBLE_PANES
    decide
  · rw [if_neg hnull]
    have hroot := hshape (by simpa [removeLeavesByTab] using hnull)
    refine reduced_success h hcounts hon (hnext _ (hroot.mono fun x hx => ?_)
      (hnodes.nodup hp.ids) (shown_sublist hsublist hp.shown)
      (hsublist.length_le.trans hp.few) _)
    obtain ⟨p, hpmem, rfl⟩ := List.mem_map.mp hx
    rw [hleaves, List.mem_filter] at hpmem
    exact (hids p.2).mpr ⟨by simpa using hpmem.2,
      hp.shape.shown_mem (List.mem_map_of_mem hpmem.1)⟩

end Arms

end RemoteDesk.Ssh.Workspace
