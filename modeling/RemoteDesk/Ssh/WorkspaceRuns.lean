/-
Runs of SSH workspaces.

A run of actions from a valid workspace keeps it valid as long as no action
activates a tab that another pane shows (`workspace_stays_valid`); the first
one that does makes it invalid for good (`activateTab_iff`). A workspace
that was made here is `Tidy`: its ids are as they are normalised and its
times are whole, so nothing else needs to be asked of a run from it.
-/
import RemoteDesk.Ssh.WorkspaceReducer

namespace RemoteDesk.Ssh.Workspace

open Lib SshPaneNode

variable {D : Type} [JsDouble D]
  {s : SshWorkspaceSnapshot D} {a : SshWorkspaceAction D}

-- ================================ one step

/-- What an action must not do: give a pane a tab that another one shows,
or use an id of a tab that is not normalised. -/
def ArmSound (s : SshWorkspaceSnapshot D) (a : SshWorkspaceAction D) : Prop :=
  match a.kind with
  | .openTab => ∀ raw tab, a.tab = some raw → normalizedTab raw = some tab →
      Plain s tab.tabId
  | .activateTab => Plain s (actionText a.tabId 96)
      ∧ ¬ ShownElsewhere s (actionText a.tabId 96)
  | .closeTab => Plain s (actionText a.tabId 96)
  | .moveTab => Plain s (actionText a.tabId 96)
  | _ => True

theorem reduce_eq (h : Valid s) :
    reduceSshWorkspace s a = reduceAction s a := by
  have hvalid := (validate_iff s).mpr h
  unfold reduceSshWorkspace
  rw [if_neg (not_not.mpr h.schema), hvalid, if_neg (by simp)]

/-- What one action preserves. -/
theorem reduce_reduced (h : Valid s) (hcounts : Counts s) (hon : Onward s a)
    (hsound : ArmSound s a) : Reduced s (reduceSshWorkspace s a) := by
  rw [reduce_eq h, reduceAction]
  unfold ArmSound at hsound
  cases hkind : a.kind with
  | renameWorkspace => exact renameWorkspace_reduced h hcounts hon
  | openTab =>
    rw [hkind] at hsound
    exact openTab_reduced h hcounts hon hsound
  | activateTab =>
    rw [hkind] at hsound
    exact activateTab_reduced h hcounts hon hsound.1 hsound.2
  | closeTab =>
    rw [hkind] at hsound
    exact closeTab_reduced h hcounts hon hsound
  | reorderTab => exact reorderTab_reduced h hcounts hon
  | setTabPinned => exact setTabPinned_reduced h hcounts hon
  | renameTab => exact renameTab_reduced h hcounts hon
  | splitPane => exact splitPane_reduced h hcounts hon
  | mergePane => exact mergePane_reduced h hcounts hon
  | moveTab =>
    rw [hkind] at hsound
    exact moveTab_reduced h hcounts hon hsound
  | focusPane => exact focusPane_reduced h hcounts hon
  | setSplitRatio => exact setSplitRatio_reduced h hcounts hon
  | setReconnectPolicy => exact setReconnectPolicy_reduced h hcounts hon
  | setSidebarVisible =>
    exact setVisible_reduced h hcounts hon fun _ =>
      next_settings h h.policy _ _
  | setInspectorVisible =>
    exact setVisible_reduced h hcounts hon fun _ =>
      next_settings h h.policy _ _
  | other name => exact reduced_error h _ _

/-- A tab is activated well exactly if no other pane shows it. -/
theorem activateTab_iff (h : Valid s) (hcounts : Counts s) (hon : Onward s a)
    (hkind : a.kind = .activateTab)
    (hplain : Plain s (actionText a.tabId 96)) :
    Reduced s (reduceSshWorkspace s a)
      ↔ ¬ ShownElsewhere s (actionText a.tabId 96) := by
  constructor
  · rintro hreduced ⟨p, hp, htab, hne⟩
    have hpanes := panesOk_of_root h (fun hnull => by
      rw [hnull] at hp
      cases hp)
    have hlisted := hpanes.shape.shown_mem (List.mem_map_of_mem hp)
    rw [htab] at hlisted
    obtain ⟨t, ht, hid⟩ := List.mem_map.mp hlisted
    have hown := (hplain t ht (.inr hid)).symm.trans hid
    have hfound : ¬ (tabIndex s (actionText a.tabId 96)).isNone = true := by
      rw [Option.isNone_iff_eq_none, tabIndex_none]
      exact fun hnone => hnone t ht hown
    have hid := hpanes.shape.valid_id (hpanes.shape.leaves_sublist.subset
      (List.mem_map_of_mem hpanes.active))
    rw [reduce_eq h, reduceAction, hkind] at hreduced
    dsimp only at hreduced
    rw [activateTab, if_neg hfound] at hreduced
    dsimp only at hreduced
    rw [if_pos (validId_iff.mp hid).1] at hreduced
    have hvalid := (validate_iff _).mp hreduced.valid
    obtain ⟨h1, h2, h3, h4, h5⟩ := panesOk_of_tab hvalid ht
    exact hne ((panesOk_replaced hpanes hpanes.active hlisted).mp
      ⟨h1, h2, h3, h4, h5⟩ p hp htab)
  · intro hone
    refine reduce_reduced h hcounts hon ?_
    unfold ArmSound
    rw [hkind]
    exact ⟨hplain, hone⟩

-- ==================================== tidy

/-- Nodes as the reducer makes them. -/
def TidyTree : SshPaneNode D → Prop
  | .null => True
  | .node _ kind tabId direction ratio first second =>
    (if kind = .leaf then direction = .horizontal ∧ ratio = JsDouble.tenths 5
        ∧ first = .null ∧ second = .null
      else tabId = [])
    ∧ TidyTree first ∧ TidyTree second

structure Tidy (s : SshWorkspaceSnapshot D) : Prop where
  tabs : ∀ t ∈ s.tabs, TidyTab t
  tree : TidyTree s.paneRoot
  created : JsDouble.floor s.createdAt = s.createdAt
  nonneg : JsNumber.ofInt 0 ≤ s.createdAt
  updated : JsDouble.floor s.updatedAt = s.updatedAt

theorem tidyTree_newLeaf (nodeId tabId : Text) :
    TidyTree (newLeaf nodeId tabId : SshPaneNode D) :=
  ⟨⟨rfl, rfl, rfl, rfl⟩, trivial, trivial⟩

variable {root : SshPaneNode D}

theorem tidyTree_replaceLeafTab (h : TidyTree root)
    (paneId newTab : Text) : TidyTree (root.replaceLeafTab paneId newTab) := by
  induction root with
  | null => exact h
  | node nodeId kind tabId direction ratio first second ih ih' =>
    obtain ⟨hnode, hfirst, hsecond⟩ := h
    rw [SshPaneNode.replaceLeafTab]
    by_cases hkind : kind = .leaf
    · rw [if_pos hkind] at hnode ⊢
      refine ⟨?_, hfirst, hsecond⟩
      rw [if_pos hkind]
      exact hnode
    · rw [if_neg hkind] at hnode ⊢
      refine ⟨?_, ih hfirst, ih' hsecond⟩
      rw [if_neg hkind]
      exact hnode

theorem tidyTree_replaceLeafWithSplit (h : TidyTree root)
    (paneId splitNodeId newLeafId newTab : Text)
    (newDirection : SshPaneDirection) (newRatio : D) :
    TidyTree (root.replaceLeafWithSplit paneId splitNodeId newLeafId newTab
      newDirection newRatio) := by
  induction root with
  | null => exact h
  | node nodeId kind tabId direction ratio first second ih ih' =>
    have hroot := h
    obtain ⟨hnode, hfirst, hsecond⟩ := h
    rw [SshPaneNode.replaceLeafWithSplit]
    by_cases hkind : kind = .leaf
    · rw [if_pos hkind]
      dsimp only
      split
      · exact hroot
      · exact ⟨rfl, hroot, tidyTree_newLeaf _ _⟩
    · rw [if_neg hkind] at hnode ⊢
      refine ⟨?_, ih hfirst, ih' hsecond⟩
      rw [if_neg hkind]
      exact hnode

theorem tidyTree_removeLeaves (h : TidyTree root)
    (drop : Text → Text → Bool) : TidyTree (root.removeLeaves drop) := by
  induction root with
  | null => exact h
  | node nodeId kind tabId direction ratio first second ih ih' =>
    have hroot := h
    obtain ⟨hnode, hfirst, hsecond⟩ := h
    rw [SshPaneNode.removeLeaves]
    by_cases hkind : kind = .leaf
    · rw [if_pos hkind]
      split
      · trivial
      · exact hroot
    · rw [if_neg hkind] at hnode ⊢
      dsimp only
      split
      · exact ih' hsecond
      split
      · exact ih hfirst
      · refine ⟨?_, ih hfirst, ih' hsecond⟩
        rw [if_neg hkind]
        exact hnode

theorem tidyTree_updateSplitRatio (h : TidyTree root) (paneId : Text)
    (newRatio : D) : TidyTree (root.updateSplitRatio paneId newRatio) := by
  induction root with
  | null => exact h
  | node nodeId kind tabId direction ratio first second ih ih' =>
    obtain ⟨hnode, hfirst, hsecond⟩ := h
    rw [SshPaneNode.updateSplitRatio]
    split
    · rename_i hboth
      rw [hboth.2] at hnode ⊢
      exact ⟨hnode, hfirst, hsecond⟩
    · refine ⟨?_, ih hfirst, ih' hsecond⟩
      by_cases hkind : kind = .leaf
      · rw [if_pos hkind] at hnode ⊢
        obtain ⟨h1, h2, h3, h4⟩ := hnode
        rw [h3, h4]
        exact ⟨h1, h2, rfl, rfl⟩
      · rw [if_neg hkind] at hnode ⊢
        exact hnode

/-- What the reducer makes of a tidy snapshot. -/
structure TidyNext (s next : SshWorkspaceSnapshot D) : Prop where
  createdAt : next.createdAt = s.createdAt
  tabs : ∀ t ∈ next.tabs, TidyTab t
  tree : TidyTree next.paneRoot

theorem tidyNext_firstLeaf {next : SshWorkspaceSnapshot D}
    (h : TidyNext s next) (otherwise : Text) :
    TidyNext s (withFirstLeaf next otherwise) := by
  unfold withFirstLeaf
  split
  · exact ⟨h.createdAt, h.tabs, h.tree⟩
  · exact ⟨h.createdAt, h.tabs, h.tree⟩

theorem tidyTabs_modify {tabs : List SshWorkspaceTab}
    (h : ∀ t ∈ tabs, TidyTab t) {f : SshWorkspaceTab → SshWorkspaceTab}
    (hf : ∀ t, TidyTab t → TidyTab (f t)) (index : Nat) :
    ∀ t ∈ tabs.modify index f, TidyTab t := by
  induction tabs generalizing index with
  | nil => simp
  | cons t tabs ih =>
    obtain ⟨ht, htabs⟩ := List.forall_mem_cons.mp h
    cases index with
    | zero =>
      rw [List.modify_zero_cons]
      exact List.forall_mem_cons.mpr ⟨hf t ht, htabs⟩
    | succ index =>
      rw [List.modify_succ_cons]
      exact List.forall_mem_cons.mpr ⟨ht, ih htabs index⟩

/-- An action leaves the snapshot, or makes a tidy one of a tidy one. -/
theorem reduceAction_tidy (h : Tidy s) :
    (reduceAction s a).snapshot = s
      ∨ ∃ next, reduceAction s a = successResult s a next
        ∧ TidyNext s next := by
  have hsame : ∀ {next : SshWorkspaceSnapshot D}, next.createdAt = s.createdAt →
      next.tabs = s.tabs → TidyTree next.paneRoot → TidyNext s next :=
    fun hcreated htabs htree => ⟨hcreated, htabs ▸ h.tabs, htree⟩
  unfold reduceAction
  split
  · unfold renameWorkspace
    dsimp only
    split
    · exact .inl rfl
    split
    · exact .inl rfl
    · exact .inr ⟨_, rfl, hsame rfl rfl h.tree⟩
  · unfold openTab
    split
    · exact .inl rfl
    split
    · exact .inl rfl
    rename_i tab htab
    split
    · exact .inl rfl
    split
    · exact .inl rfl
    have htabs : ∀ t ∈ s.tabs ++ [tab], TidyTab t := by
      intro t ht
      rcases List.mem_append.mp ht with ht | ht
      · exact h.tabs t ht
      · rw [List.mem_singleton.mp ht]
        exact (tidy_of_normalizedTab htab).2
    dsimp only
    split
    · split
      · exact .inl rfl
      · exact .inr ⟨_, rfl, rfl, htabs, tidyTree_newLeaf _ _⟩
    split
    · exact .inr ⟨_, rfl, rfl, htabs, tidyTree_replaceLeafTab h.tree _ _⟩
    · exact .inr ⟨_, rfl, rfl, htabs, h.tree⟩
  · unfold activateTab
    dsimp only
    split
    · exact .inl rfl
    split
    · exact .inr ⟨_, rfl, hsame rfl rfl (tidyTree_replaceLeafTab h.tree _ _)⟩
    · exact .inr ⟨_, rfl, hsame rfl rfl h.tree⟩
  · unfold closeTab
    dsimp only
    split
    · exact .inl rfl
    rename_i index hindex
    have htabs : ∀ t ∈ s.tabs.eraseIdx index, TidyTab t :=
      fun t ht => h.tabs t (List.mem_of_mem_eraseIdx ht)
    split
    · exact .inr ⟨_, rfl, rfl, htabs, trivial⟩
    · refine .inr ⟨_, rfl, tidyNext_firstLeaf ?_ _⟩
      split
      · exact ⟨rfl, htabs, tidyTree_newLeaf _ _⟩
      · exact ⟨rfl, htabs, tidyTree_removeLeaves h.tree _⟩
  · unfold reorderTab
    dsimp only
    split
    · exact .inl rfl
    split
    · exact .inl rfl
    split
    · exact .inr ⟨_, rfl, hsame rfl rfl h.tree⟩
    split
    · exact .inl rfl
    · exact .inr ⟨_, rfl, hsame rfl rfl h.tree⟩
  · unfold setTabPinned
    split
    · split
      · exact .inl rfl
      · refine .inr ⟨_, rfl, rfl, tidyTabs_modify h.tabs (fun t ht => ?_) _,
          h.tree⟩
        exact ⟨ht.tabId, ht.hostId, ht.kind⟩
    · exact .inl rfl
  · unfold renameTab
    split
    · dsimp only
      split
      · exact .inl rfl
      · refine .inr ⟨_, rfl, rfl, tidyTabs_modify h.tabs (fun t ht => ?_) _,
          h.tree⟩
        exact ⟨ht.tabId, ht.hostId, ht.kind⟩
    · exact .inl rfl
  · unfold splitPane
    dsimp only
    split
    swap
    · exact .inl rfl
    split
    · exact .inl rfl
    split
    · exact .inl rfl
    split
    · exact .inl rfl
    split
    · exact .inl rfl
    split
    · exact .inl rfl
    · exact .inr ⟨_, rfl, hsame rfl rfl
        (tidyTree_replaceLeafWithSplit h.tree _ _ _ _ _ _)⟩
  · unfold mergePane
    dsimp only
    split
    · exact .inl rfl
    split
    · exact .inl rfl
    · refine .inr ⟨_, rfl, tidyNext_firstLeaf ?_ _⟩
      exact hsame rfl rfl (tidyTree_removeLeaves h.tree _)
  · unfold moveTab
    dsimp only
    split
    swap
    · exact .inl rfl
    split
    · exact .inl rfl
    have htree := tidyTree_replaceLeafTab h.tree (actionText a.paneId 96)
      (actionText a.tabId 96)
    refine .inr ⟨_, rfl, hsame rfl rfl ?_⟩
    dsimp only
    split
    · exact tidyTree_replaceLeafTab htree _ _
    · exact htree
  · unfold focusPane
    dsimp only
    split
    · exact .inl rfl
    · exact .inr ⟨_, rfl, hsame rfl rfl h.tree⟩
  · unfold setSplitRatio
    dsimp only
    split
    · split
      · exact .inl rfl
      · exact .inr ⟨_, rfl, hsame rfl rfl
          (tidyTree_updateSplitRatio h.tree _ _)⟩
    · exact .inl rfl
  · unfold setReconnectPolicy
    split
    · exact .inr ⟨_, rfl, hsame rfl rfl h.tree⟩
    · exact .inr ⟨_, rfl, hsame rfl rfl h.tree⟩
    · exact .inl rfl
  · unfold setVisible
    split
    · exact .inl rfl
    · exact .inr ⟨_, rfl, hsame rfl rfl h.tree⟩
  · unfold setVisible
    split
    · exact .inl rfl
    · exact .inr ⟨_, rfl, hsame rfl rfl h.tree⟩
  · exact .inl rfl

/-- What one action preserves of a tidy snapshot, valid or not. -/
theorem reduce_tidy (h : Tidy s) : Tidy (reduceSshWorkspace s a).snapshot
    ∧ ((reduceSshWorkspace s a).snapshot.revision = s.revision
      ∨ (reduceSshWorkspace s a).snapshot.revision
        = JsDouble.succ s.revision) := by
  unfold reduceSshWorkspace
  split
  · exact ⟨h, .inl rfl⟩
  split
  · exact ⟨h, .inl rfl⟩
  rcases reduceAction_tidy h with hsame | ⟨next, hnext, hcreated, htabs, htree⟩
  · rw [hsame]
    exact ⟨h, .inl rfl⟩
  · rw [hnext]
    refine ⟨⟨htabs, htree, ?_, ?_, ?_⟩, .inr rfl⟩
    · show JsDouble.floor next.createdAt = next.createdAt
      rw [hcreated]
      exact h.created
    · show JsNumber.ofInt 0 ≤ next.createdAt
      rw [hcreated]
      exact h.nonneg
    · show JsDouble.floor (nextTimestamp s a.nowMs) = nextTimestamp s a.nowMs
      unfold nextTimestamp
      split
      · split
        · exact JsDouble.floor_floor _
        · exact JsDouble.floor_succ h.updated
      · exact JsDouble.floor_succ h.updated

theorem Tidy.plain (h : Tidy s) (tabId : Text) : Plain s tabId :=
  fun t ht _ => (h.tabs t ht).tabId

theorem Tidy.onward (h : Tidy s) : Onward s a := by
  intro now _ _ hle
  rw [← h.updated]
  exact JsDouble.floor_mono hle

/-- Of a tidy snapshot only one thing is asked. -/
theorem Tidy.armSound (h : Tidy s) (hone : a.kind = .activateTab →
      ¬ ShownElsewhere s (actionText a.tabId 96)) : ArmSound s a := by
  unfold ArmSound
  split
  · exact fun _ tab _ _ => h.plain tab.tabId
  · rename_i hkind
    exact ⟨h.plain _, hone hkind⟩
  · exact h.plain _
  · exact h.plain _
  · trivial

-- ==================================== runs

/-- Every action of a run keeps the condition. -/
def SoundRun : SshWorkspaceSnapshot D → List (SshWorkspaceAction D) → Prop
  | _, [] => True
  | s, a :: rest => Counts s ∧ Onward s a ∧ ArmSound s a
      ∧ SoundRun (reduceSshWorkspace s a).snapshot rest

/-- No action of a run activates a tab that another pane shows. -/
def ApartRun : SshWorkspaceSnapshot D → List (SshWorkspaceAction D) → Prop
  | _, [] => True
  | s, a :: rest => (a.kind = .activateTab →
        ¬ ShownElsewhere s (actionText a.tabId 96))
      ∧ ApartRun (reduceSshWorkspace s a).snapshot rest

/-- Every result of a run keeps its promise. -/
def ReducedRun : SshWorkspaceSnapshot D → List (SshWorkspaceAction D) → Prop
  | s, [] => validateSshWorkspaceSnapshot s = []
  | s, a :: rest => Reduced s (reduceSshWorkspace s a)
      ∧ ReducedRun (reduceSshWorkspace s a).snapshot rest

theorem reducedRun_of_sound {actions : List (SshWorkspaceAction D)}
    (h : Valid s) (hsound : SoundRun s actions) : ReducedRun s actions := by
  induction actions generalizing s with
  | nil => exact (validate_iff s).mpr h
  | cons a rest ih =>
    obtain ⟨hcounts, hon, harm, hrest⟩ := hsound
    have hreduced := reduce_reduced h hcounts hon harm
    exact ⟨hreduced, ih ((validate_iff _).mp hreduced.valid) hrest⟩

/-- A tidy run is sound as long as its actions can be counted. -/
theorem soundRun_of_tidy {actions : List (SshWorkspaceAction D)}
    (htidy : Tidy s) {n : Nat} (hrevision : s.revision = JsNumber.ofInt n)
    (hfew : n + actions.length ≤ 2 ^ 53) (hapart : ApartRun s actions) :
    SoundRun s actions := by
  induction actions generalizing s n with
  | nil => trivial
  | cons a rest ih =>
    obtain ⟨hone, hrest⟩ := hapart
    rw [List.length_cons] at hfew
    obtain ⟨htidy', hnext⟩ := reduce_tidy (a := a) htidy
    refine ⟨⟨n, by omega, hrevision⟩, htidy.onward, htidy.armSound hone, ?_⟩
    rcases hnext with hsame | hsucc
    · exact ih htidy' (hsame.trans hrevision) (by omega) hrest
    · refine ih htidy' (n := n + 1) ?_ (by omega) hrest
      rw [hsucc, hrevision, JsDouble.succ_ofInt n (by simp; omega)]
      rfl

/-- A new workspace is valid and tidy, at revision zero. -/
theorem createEmpty_spec (workspaceId name : Text) (nowMs : Option D) :
    Valid (createEmptySshWorkspace workspaceId name nowMs)
      ∧ Tidy (createEmptySshWorkspace workspaceId name nowMs)
      ∧ (createEmptySshWorkspace workspaceId name nowMs).revision
        = JsNumber.ofInt 0 := by
  have hzero : JsDouble.floor (JsNumber.ofInt 0 : D) = JsNumber.ofInt 0 :=
    JsDouble.floor_ofInt 0 (by decide)
  have hfinite : JsDouble.isFinite (JsNumber.ofInt 0 : D) = true :=
    JsDouble.finite_ofInt 0 (by decide)
  have hspec : ∀ time : D, time = creationTimestamp nowMs →
      JsDouble.isFinite time = true ∧ JsNumber.ofInt 0 ≤ time
        ∧ JsDouble.floor time = time := by
    intro time htime
    rw [htime]
    unfold creationTimestamp
    split
    · split
      · rename_i now hboth
        rw [Bool.and_eq_true, decide_eq_true_eq] at hboth
        refine ⟨JsDouble.finite_floor hboth.1, ?_, JsDouble.floor_floor _⟩
        rw [← hzero]
        exact JsDouble.floor_mono hboth.2
      · exact ⟨hfinite, le_refl _, hzero⟩
    · exact ⟨hfinite, le_refl _, hzero⟩
  obtain ⟨htimeFinite, hnonneg, hwhole⟩ := hspec _ rfl
  unfold createEmptySshWorkspace
  dsimp only
  refine ⟨⟨rfl, ?_, ?_, ⟨?_, le_refl _, htimeFinite, htimeFinite, le_refl _⟩,
    Nat.zero_le _, ⟨by simp, List.Pairwise.nil⟩, ⟨List.nodup_nil, by simp⟩,
    .inl ⟨rfl, rfl, rfl, rfl⟩, .inl rfl⟩,
    ⟨by simp, trivial, hwhole, hnonneg, hwhole⟩, rfl⟩
  · show validId (if _ then _ else _) = true
    split
    · assumption
    · decide
  · show normalizedText (if _ then _ else _) 120 ≠ []
    split
    · rename_i hname
      exact normalizedText_normalizedText_ne_nil
        (List.ne_nil_of_length_pos hname) (by norm_num)
    · decide
  · rw [isInteger, hfinite, hzero]
    exact decide_eq_true rfl

/-- From any valid snapshot a sound run stays valid, and a tab is activated
well exactly if no other pane shows it. From a new workspace nothing else
has to be asked. -/
theorem workspace_stays_valid (hvalid : validateSshWorkspaceSnapshot s = [])
    {actions : List (SshWorkspaceAction D)} (hsound : SoundRun s actions)
    (workspaceId name : Text) (nowMs : Option D)
    {fresh : List (SshWorkspaceAction D)} (hfew : fresh.length ≤ 2 ^ 53)
    (hapart : ApartRun (createEmptySshWorkspace workspaceId name nowMs) fresh) :
    ReducedRun s actions
      ∧ (∀ a : SshWorkspaceAction D, Counts s → Onward s a →
        a.kind = .activateTab → Plain s (actionText a.tabId 96) →
        (Reduced s (reduceSshWorkspace s a)
          ↔ ¬ ShownElsewhere s (actionText a.tabId 96)))
      ∧ ReducedRun (createEmptySshWorkspace workspaceId name nowMs) fresh := by
  have h := (validate_iff s).mp hvalid
  obtain ⟨hnew, htidy, hrevision⟩ :=
    createEmpty_spec workspaceId name nowMs
  exact ⟨reducedRun_of_sound h hsound, fun a => activateTab_iff h,
    reducedRun_of_sound hnew
      (soundRun_of_tidy (n := 0) htidy hrevision (by omega) hapart)⟩

-- ====================== two panes, one tab

/-- A tab with an id, for a host. -/
def plainTab (id : String) : SshWorkspaceTab :=
  { tabId := codes id, kind := .terminal, hostId := codes "h"
    titleOverride := [], profileId := [], pinned := false }

/-- Two tabs, the second one in a pane of its own. -/
def splitActions : List (SshWorkspaceAction Int) :=
  [{ kind := .openTab, tab := some (plainTab "a").json, paneId := codes "p" },
    { kind := .openTab, tab := some (plainTab "b").json },
    { kind := .splitPane, tabId := codes "a", paneId := codes "p"
      splitNodeId := codes "s", newLeafId := codes "q"
      direction := some .horizontal, ratio := some 0 }]

/-- Then the tab of the other pane is activated. -/
def activateActions : List (SshWorkspaceAction Int) :=
  splitActions ++ [{ kind := .activateTab, tabId := codes "b" }]

/-- The snapshot after a run. -/
def afterRun (s : SshWorkspaceSnapshot D)
    (actions : List (SshWorkspaceAction D)) : SshWorkspaceSnapshot D :=
  actions.foldl (fun s a => (reduceSshWorkspace s a).snapshot) s

def newWorkspace : SshWorkspaceSnapshot Int :=
  createEmptySshWorkspace (codes "w") (codes "n") (some 0)

/-- A tab in two panes: the workspace refuses whatever comes next. -/
theorem workspace_bricked :
    validateSshWorkspaceSnapshot (afterRun newWorkspace splitActions) = []
      ∧ validateSshWorkspaceSnapshot (afterRun newWorkspace activateActions)
          = ["pane_leaf"]
      ∧ ∀ a, reduceSshWorkspace (afterRun newWorkspace activateActions) a
        = errorResult (afterRun newWorkspace activateActions) a
          .invalidSnapshot "工作区状态无效" := by
  have hvalid : validateSshWorkspaceSnapshot
      (afterRun newWorkspace activateActions) = ["pane_leaf"] := by
    decide +kernel
  refine ⟨by decide +kernel, hvalid, fun a => ?_⟩
  unfold reduceSshWorkspace
  rw [if_neg (not_not.mpr (by decide +kernel)), hvalid]
  rfl

/-- Two tabs in one pane, the hidden one activated. -/
def switchActions : List (SshWorkspaceAction Int) :=
  [{ kind := .openTab, tab := some (plainTab "a").json, paneId := codes "p" },
    { kind := .openTab, tab := some (plainTab "b").json },
    { kind := .activateTab, tabId := codes "a" }]

theorem workspace_stays_valid_switch :
    validateSshWorkspaceSnapshot newWorkspace = []
      ∧ ReducedRun newWorkspace switchActions := by
  have hvalid : validateSshWorkspaceSnapshot newWorkspace = [] := by
    decide +kernel
  have hapart : ApartRun newWorkspace switchActions := by
    refine ⟨fun h => (by cases h), fun h => (by cases h), fun _ => ?_, trivial⟩
    unfold ShownElsewhere
    decide +kernel
  have hsound : SoundRun newWorkspace switchActions :=
    soundRun_of_tidy (createEmpty_spec _ _ _).2.1 (n := 0) rfl (by decide)
      hapart
  exact ⟨hvalid, (workspace_stays_valid hvalid hsound (codes "w") (codes "n")
    (some 0) (by decide) hapart).2.2⟩

end RemoteDesk.Ssh.Workspace
