/-
SSH workspaces (services/ssh/workspace/SshWorkspacePolicy.ets).

The snapshot of a workspace and the reducer of its fifteen actions. A pane
tree is binary; `SshPaneNode.null` is no node. Texts are UTF-16 units,
copies are the values themselves. Numbers are doubles (`JsDouble`); an
optional number is nothing where it is `NaN`, which the reducer treats as
it treats an absent one.

# What is not typed

A tab may come from storage, so `normalizedTab` reads a JSON value; a
snapshot's own tab is checked as the value that it is written as.
-/
import RemoteDesk.Endpoint.Address
import RemoteDesk.Lib.Double
import RemoteDesk.Sftp.BatchPolicy

namespace RemoteDesk.Ssh.Workspace

open Lib
open Sftp (trim)

-- =============================== snapshots

inductive SshWorkspaceTabKind where
  | terminal
  | sftp
  | other (name : Text)
deriving DecidableEq, Repr

inductive SshPaneDirection where
  | horizontal
  | vertical
  | other (name : Text)
deriving DecidableEq, Repr

inductive SshPaneKind where
  | leaf
  | split
  | other (name : Text)
deriving DecidableEq, Repr

inductive SshWorkspaceReconnectPolicy where
  | never
  | ask
  | other (name : Text)
deriving DecidableEq, Repr

structure SshWorkspaceTab where
  tabId : Text
  kind : SshWorkspaceTabKind
  hostId : Text
  titleOverride : Text
  profileId : Text
  pinned : Bool
deriving DecidableEq, Repr

inductive SshPaneNode (D : Type) where
  | null
  | node (nodeId : Text) (kind : SshPaneKind) (tabId : Text)
      (direction : SshPaneDirection) (ratio : D)
      (first second : SshPaneNode D)

structure SshWorkspaceSnapshot (D : Type) where
  schemaVersion : D
  revision : D
  workspaceId : Text
  name : Text
  tabs : List SshWorkspaceTab
  tabOrder : List Text
  paneRoot : SshPaneNode D
  activeTabId : Text
  activePaneId : Text
  reconnectPolicy : SshWorkspaceReconnectPolicy
  sidebarVisible : Bool
  inspectorVisible : Bool
  createdAt : D
  updatedAt : D

inductive SshWorkspaceActionKind where
  | renameWorkspace
  | openTab
  | activateTab
  | closeTab
  | reorderTab
  | setTabPinned
  | renameTab
  | splitPane
  | mergePane
  | moveTab
  | focusPane
  | setSplitRatio
  | setReconnectPolicy
  | setSidebarVisible
  | setInspectorVisible
  | other (name : Text)
deriving DecidableEq, Repr

structure SshWorkspaceAction (D : Type) where
  kind : SshWorkspaceActionKind
  nowMs : Option D := none
  name : Option Text := none
  title : Option Text := none
  tab : Option (Json D) := none
  tabId : Option Text := none
  beforeTabId : Option Text := none
  pinned : Option Bool := none
  paneId : Option Text := none
  splitNodeId : Option Text := none
  newLeafId : Option Text := none
  direction : Option SshPaneDirection := none
  ratio : Option D := none
  reconnectPolicy : Option SshWorkspaceReconnectPolicy := none
  visible : Option Bool := none

inductive SshWorkspaceErrorCode where
  | invalidAction
  | invalidId
  | duplicateId
  | notFound
  | limitReached
  | invalidSnapshot
  | unsupportedSchema
deriving DecidableEq, Repr

structure SshWorkspaceError where
  code : SshWorkspaceErrorCode
  action : SshWorkspaceActionKind
  message : String
deriving DecidableEq, Repr

structure SshWorkspaceReduceResult (D : Type) where
  changed : Bool
  snapshot : SshWorkspaceSnapshot D
  error : Option SshWorkspaceError

variable {D : Type} [JsDouble D]

def SSH_WORKSPACE_SCHEMA_VERSION : D := JsNumber.ofInt 1
def SSH_WORKSPACE_MAX_TABS : Nat := 32
def SSH_WORKSPACE_MAX_VISIBLE_PANES : Nat := 4
def SSH_WORKSPACE_MAX_PANE_DEPTH : Nat := 8

-- =================================== texts

/-- `/^[A-Za-z0-9._:-]+$/` of one unit. -/
def isIdUnit (u : Nat) : Bool :=
  Endpoint.isAsciiAlnum u || u = 46 || u = 95 || u = 58 || u = 45

def validId (value : Text) : Bool :=
  0 < value.length && value.length ≤ 96 && value.all isIdUnit

def normalizedText (value : Text) (maxLength : Nat) : Text :=
  (trim value).take maxLength

/-- A text that an action may leave out. -/
def actionText (value : Option Text) (maxLength : Nat) : Text :=
  normalizedText (value.getD []) maxLength

-- ==================================== tabs

def SshWorkspaceTabKind.name : SshWorkspaceTabKind → Text
  | .terminal => codes "terminal"
  | .sftp => codes "sftp"
  | .other name => name

/-- A tab as it is written. -/
def SshWorkspaceTab.members (t : SshWorkspaceTab) : List (Text × Json D) :=
  [(codes "tabId", .str t.tabId),
    (codes "kind", .str t.kind.name),
    (codes "hostId", .str t.hostId),
    (codes "titleOverride", .str t.titleOverride),
    (codes "profileId", .str t.profileId),
    (codes "pinned", .bool t.pinned)]

def SshWorkspaceTab.json (t : SshWorkspaceTab) : Json D := .obj t.members

def normalizedTab (tab : Json D) : Option SshWorkspaceTab :=
  match member "tabId" tab, member "hostId" tab, member "kind" tab,
      member "titleOverride" tab, member "profileId" tab,
      member "pinned" tab with
  | some (.str rawId), some (.str rawHost), some (.str kind),
      some (.str title), some (.str profile), some (.bool pinned) =>
      let tabId := normalizedText rawId 96
      let hostId := normalizedText rawHost 96
      if !validId tabId || !validId hostId then none
      else
        let tab kind : SshWorkspaceTab :=
          { tabId, kind, hostId, titleOverride := normalizedText title 160
            profileId := normalizedText profile 96, pinned }
        if kind = codes "terminal" then some (tab .terminal)
        else if kind = codes "sftp" then some (tab .sftp)
        else none
  | _, _, _, _, _, _ => none

def tabIndex (snapshot : SshWorkspaceSnapshot D) (tabId : Text) :
    Option Nat :=
  snapshot.tabs.findIdx? fun t => t.tabId = tabId

-- =================================== panes

namespace SshPaneNode

def isNull : SshPaneNode D → Bool
  | null => true
  | node .. => false

/-- A leaf as every operation makes it. -/
def newLeaf (nodeId tabId : Text) : SshPaneNode D :=
  node nodeId .leaf tabId .horizontal (JsDouble.tenths 5) null null

def paneById (paneId : Text) : SshPaneNode D → SshPaneNode D
  | null => null
  | node nodeId kind tabId direction ratio first second =>
    if nodeId = paneId then
      node nodeId kind tabId direction ratio first second
    else match paneById paneId first with
      | null => paneById paneId second
      | pane => pane

/-- The tab of a leaf; nothing where `leafById` finds no leaf. -/
def leafTab : SshPaneNode D → Option Text
  | node _ .leaf tabId _ _ _ _ => some tabId
  | _ => none

def leafById (root : SshPaneNode D) (paneId : Text) : Option Text :=
  (root.paneById paneId).leafTab

def paneContainsTab (tabId : Text) : SshPaneNode D → Bool
  | null => false
  | node _ kind ownTab _ _ first second =>
    if kind = .leaf then ownTab = tabId
    else first.paneContainsTab tabId || second.paneContainsTab tabId

def visiblePaneCount : SshPaneNode D → Nat
  | null => 0
  | node _ kind _ _ _ first second =>
    if kind = .leaf then 1
    else first.visiblePaneCount + second.visiblePaneCount

/-- The first leaf's id and tab. -/
def firstLeaf : SshPaneNode D → Option (Text × Text)
  | null => none
  | node nodeId kind tabId _ _ first second =>
    if kind = .leaf then some (nodeId, tabId)
    else first.firstLeaf.or second.firstLeaf

def replaceLeafTab (paneId newTab : Text) : SshPaneNode D → SshPaneNode D
  | null => null
  | node nodeId kind tabId direction ratio first second =>
    if kind = .leaf then
      node nodeId kind (if nodeId = paneId then newTab else tabId) direction
        ratio first second
    else node nodeId kind tabId direction ratio
      (first.replaceLeafTab paneId newTab)
      (second.replaceLeafTab paneId newTab)

def replaceLeafWithSplit (paneId splitNodeId newLeafId newTab : Text)
    (newDirection : SshPaneDirection) (newRatio : D) :
    SshPaneNode D → SshPaneNode D
  | null => null
  | node nodeId kind tabId direction ratio first second =>
    if kind = .leaf then
      let leaf := node nodeId kind tabId direction ratio first second
      if nodeId ≠ paneId then leaf
      else node splitNodeId .split [] newDirection newRatio leaf
        (newLeaf newLeafId newTab)
    else node nodeId kind tabId direction ratio
      (first.replaceLeafWithSplit paneId splitNodeId newLeafId newTab
        newDirection newRatio)
      (second.replaceLeafWithSplit paneId splitNodeId newLeafId newTab
        newDirection newRatio)

/-- The leaves that `drop` names are taken out; a split that keeps one side
becomes that side. -/
def removeLeaves (drop : Text → Text → Bool) : SshPaneNode D → SshPaneNode D
  | null => null
  | node nodeId kind tabId direction ratio first second =>
    if kind = .leaf then
      if drop nodeId tabId then null
      else node nodeId kind tabId direction ratio first second
    else
      let first := first.removeLeaves drop
      let second := second.removeLeaves drop
      if first.isNull then second
      else if second.isNull then first
      else node nodeId kind tabId direction ratio first second

def removeLeafById (root : SshPaneNode D) (paneId : Text) : SshPaneNode D :=
  root.removeLeaves fun nodeId _ => nodeId = paneId

def removeLeavesByTab (root : SshPaneNode D) (tabId : Text) : SshPaneNode D :=
  root.removeLeaves fun _ ownTab => ownTab = tabId

def updateSplitRatio (paneId : Text) (newRatio : D) :
    SshPaneNode D → SshPaneNode D
  | null => null
  | node nodeId kind tabId direction ratio first second =>
    if nodeId = paneId ∧ kind = .split then
      node nodeId kind tabId direction newRatio first second
    else node nodeId kind tabId direction ratio
      (first.updateSplitRatio paneId newRatio)
      (second.updateSplitRatio paneId newRatio)

/-- The pane that shows a tab, unless one was found before. -/
def findSource (tabId : Text) : SshPaneNode D → Text → Text
  | null, source => source
  | node nodeId kind ownTab _ _ first second, source =>
    if source ≠ [] then source
    else if kind = .leaf ∧ ownTab = tabId then nodeId
    else second.findSource tabId (first.findSource tabId source)

/-- How many nodes a tree has. -/
def size : SshPaneNode D → Nat
  | null => 0
  | node _ _ _ _ _ first second => first.size + second.size + 1

end SshPaneNode

def stableIdToken (value : Text) : Text :=
  numeral 36
    (value.foldl (fun hash u => (hash * 33 + u) % 2147483647) 5381)

def generatedPaneBaseId (workspaceId : Text) : Text :=
  normalizedText workspaceId 60 ++ codes ":pane:" ++ stableIdToken workspaceId

/-- The first free suffix, among as many as there are nodes and one more. -/
def freeSuffix (root : SshPaneNode D) (base : Text) : Nat → Nat → Nat
  | 0, suffix => suffix
  | n + 1, suffix =>
    if (root.paneById (base ++ 58 :: numeral 10 suffix)).isNull then suffix
    else freeSuffix root base n (suffix + 1)

def uniquePaneId (snapshot : SshWorkspaceSnapshot D) : Text :=
  let base := generatedPaneBaseId snapshot.workspaceId
  if (snapshot.paneRoot.paneById base).isNull then base
  else base ++ 58 :: numeral 10
    (freeSuffix snapshot.paneRoot base (snapshot.paneRoot.size + 1) 2)

-- ============================== validation

/-- `Set.add`. -/
def addId (ids : List Text) (id : Text) : List Text :=
  if id ∈ ids then ids else ids ++ [id]

structure PaneValidation where
  paneIds : List Text
  visibleTabs : List Text
  errors : List String

def PaneValidation.fail (v : PaneValidation) (error : String) :
    PaneValidation := { v with errors := v.errors ++ [error] }

def collectPaneValidation (tabIds : List Text) :
    SshPaneNode D → Nat → PaneValidation → PaneValidation
  | .null, _, v => v
  | .node nodeId kind tabId direction ratio first second, depth, v =>
    if depth > SSH_WORKSPACE_MAX_PANE_DEPTH then v.fail "pane_depth"
    else if !validId nodeId || nodeId ∈ v.paneIds then v.fail "pane_id"
    else
      let v := { v with paneIds := addId v.paneIds nodeId }
      if kind = .leaf then
        if tabId ∉ tabIds ∨ tabId ∈ v.visibleTabs ∨ !first.isNull
            ∨ !second.isNull then v.fail "pane_leaf"
        else { v with visibleTabs := addId v.visibleTabs tabId }
      else if kind ≠ .split ∨ first.isNull ∨ second.isNull
          ∨ (direction ≠ .horizontal ∧ direction ≠ .vertical)
          ∨ !JsDouble.isFinite ratio ∨ ratio < JsDouble.tenths 2
          ∨ JsDouble.tenths 8 < ratio then v.fail "pane_split"
      else collectPaneValidation tabIds second (depth + 1)
        (collectPaneValidation tabIds first (depth + 1) v)

/-- The loop over the tabs: the ids met, and the errors. -/
def validateTabs : List SshWorkspaceTab → List Text → List String →
    List Text × List String
  | [], ids, errors => (ids, errors)
  | t :: tabs, ids, errors =>
    match normalizedTab (D := D) t.json with
    | none => validateTabs tabs ids (errors ++ ["tab"])
    | some tab =>
      if t.tabId ∈ ids then validateTabs tabs ids (errors ++ ["tab"])
      else validateTabs tabs (addId ids tab.tabId) errors

/-- The loop over the order of the tabs. -/
def validateOrder (tabIds : List Text) : List Text → List Text →
    List String → List Text × List String
  | [], ids, errors => (ids, errors)
  | id :: order, ids, errors =>
    if id ∉ tabIds ∨ id ∈ ids then
      validateOrder tabIds order ids (errors ++ ["tab_order"])
    else validateOrder tabIds order (addId ids id) errors

/-- An error that is there if a check fails. -/
def check (ok : Bool) (error : String) : List String :=
  if ok then [] else [error]

def validateSshWorkspaceSnapshot (snapshot : SshWorkspaceSnapshot D) :
    List String :=
  let (tabIds, tabErrors) := validateTabs (D := D) snapshot.tabs [] []
  let (orderIds, orderErrors) :=
    validateOrder tabIds snapshot.tabOrder [] []
  let panes := collectPaneValidation tabIds snapshot.paneRoot 0 ⟨[], [], []⟩
  let activeLeaf := snapshot.paneRoot.leafById snapshot.activePaneId
  check (snapshot.schemaVersion = SSH_WORKSPACE_SCHEMA_VERSION) "schema"
    ++ check (validId snapshot.workspaceId
      && normalizedText snapshot.name 120 ≠ []) "identity"
    ++ check (isInteger snapshot.revision
      && JsNumber.ofInt 0 ≤ snapshot.revision
      && JsDouble.isFinite snapshot.createdAt
      && JsDouble.isFinite snapshot.updatedAt
      && snapshot.createdAt ≤ snapshot.updatedAt) "revision"
    ++ check (snapshot.tabs.length ≤ SSH_WORKSPACE_MAX_TABS) "tab_limit"
    ++ tabErrors ++ orderErrors
    ++ check (orderIds.length = tabIds.length) "tab_order_size"
    ++ panes.errors
    ++ check (panes.visibleTabs.length ≤ SSH_WORKSPACE_MAX_VISIBLE_PANES)
      "pane_limit"
    ++ check (!(snapshot.tabs.length = 0 && !snapshot.paneRoot.isNull))
      "empty_pane"
    ++ check (!(snapshot.tabs.length > 0 && snapshot.paneRoot.isNull))
      "missing_pane"
    ++ (if snapshot.tabs.length = 0 then
        check (snapshot.activeTabId = []) "active_tab"
          ++ check (snapshot.activePaneId = []) "active_pane"
      else
        check activeLeaf.isSome "active_pane"
          ++ check (snapshot.activeTabId ∈ tabIds
            && activeLeaf = some snapshot.activeTabId) "active_tab")
    ++ check (snapshot.reconnectPolicy = .never
      || snapshot.reconnectPolicy = .ask) "reconnect_policy"

-- ================================= reducer

/-- Whole milliseconds, or zero. -/
def creationTimestamp (nowMs : Option D) : D :=
  match nowMs with
  | some now =>
    if JsDouble.isFinite now && JsNumber.ofInt 0 ≤ now then
      JsDouble.floor now
    else JsNumber.ofInt 0
  | none => JsNumber.ofInt 0

def createEmptySshWorkspace (workspaceId name : Text) (nowMs : Option D) :
    SshWorkspaceSnapshot D :=
  let normalizedId := normalizedText workspaceId 96
  let normalizedName := normalizedText name 120
  let timestamp := creationTimestamp nowMs
  { schemaVersion := SSH_WORKSPACE_SCHEMA_VERSION
    revision := JsNumber.ofInt 0
    workspaceId :=
      if validId normalizedId then normalizedId else codes "workspace-local"
    name := if normalizedName.length > 0 then normalizedName
      else codes "SSH 工作区"
    tabs := []
    tabOrder := []
    paneRoot := .null
    activeTabId := []
    activePaneId := []
    reconnectPolicy := .never
    sidebarVisible := true
    inspectorVisible := false
    createdAt := timestamp
    updatedAt := timestamp }

def nextTimestamp (snapshot : SshWorkspaceSnapshot D) (nowMs : Option D) :
    D :=
  match nowMs with
  | some now =>
    if JsDouble.isFinite now && snapshot.updatedAt ≤ now then
      JsDouble.floor now
    else JsDouble.succ snapshot.updatedAt
  | none => JsDouble.succ snapshot.updatedAt

section Reducer

variable (snapshot : SshWorkspaceSnapshot D) (action : SshWorkspaceAction D)

def errorResult (code : SshWorkspaceErrorCode) (message : String) :
    SshWorkspaceReduceResult D :=
  { changed := false, snapshot, error := some ⟨code, action.kind, message⟩ }

def unchangedResult : SshWorkspaceReduceResult D :=
  { changed := false, snapshot, error := none }

def successResult (next : SshWorkspaceSnapshot D) :
    SshWorkspaceReduceResult D :=
  { changed := true
    snapshot := { next with
      revision := JsDouble.succ snapshot.revision
      updatedAt := nextTimestamp snapshot action.nowMs }
    error := none }

def renameWorkspace : SshWorkspaceReduceResult D :=
  let name := actionText action.name 120
  if name.length = 0 then
    errorResult snapshot action .invalidAction "工作区名称不能为空"
  else if name = snapshot.name then unchangedResult snapshot
  else successResult snapshot action { snapshot with name }

def openTab : SshWorkspaceReduceResult D :=
  match action.tab with
  | none => errorResult snapshot action .invalidAction "缺少标签"
  | some raw =>
    match normalizedTab raw with
    | none => errorResult snapshot action .invalidId "标签字段无效"
    | some tab =>
      if (tabIndex snapshot tab.tabId).isSome then
        errorResult snapshot action .duplicateId "标签 ID 已存在"
      else if snapshot.tabs.length ≥ SSH_WORKSPACE_MAX_TABS then
        errorResult snapshot action .limitReached "工作区标签数量已达上限"
      else
        let next := { snapshot with
          tabs := snapshot.tabs ++ [tab]
          tabOrder := snapshot.tabOrder ++ [tab.tabId]
          activeTabId := tab.tabId }
        if snapshot.paneRoot.isNull then
          let paneId := actionText action.paneId 96
          if !validId paneId then
            errorResult snapshot action .invalidId "首个 Pane ID 无效"
          else successResult snapshot action { next with
            paneRoot := .newLeaf paneId tab.tabId
            activePaneId := paneId }
        else if snapshot.activePaneId ≠ [] then
          successResult snapshot action { next with
            paneRoot := snapshot.paneRoot.replaceLeafTab
              snapshot.activePaneId tab.tabId }
        else successResult snapshot action next

def activateTab : SshWorkspaceReduceResult D :=
  let tabId := actionText action.tabId 96
  if (tabIndex snapshot tabId).isNone then
    errorResult snapshot action .notFound "标签不存在"
  else
    let next := { snapshot with activeTabId := tabId }
    if snapshot.activePaneId ≠ [] then
      successResult snapshot action { next with
        paneRoot := snapshot.paneRoot.replaceLeafTab
          snapshot.activePaneId tabId }
    else successResult snapshot action next

/-- The active pane and tab of a tree that may have lost the active leaf. -/
def withFirstLeaf (next : SshWorkspaceSnapshot D) (otherwise : Text) :
    SshWorkspaceSnapshot D :=
  match next.paneRoot.firstLeaf with
  | none => { next with activePaneId := [], activeTabId := otherwise }
  | some (nodeId, tabId) =>
    { next with activePaneId := nodeId, activeTabId := tabId }

def closeTab : SshWorkspaceReduceResult D :=
  let tabId := actionText action.tabId 96
  match tabIndex snapshot tabId with
  | none => errorResult snapshot action .notFound "标签不存在"
  | some index =>
    let next := { snapshot with
      tabs := snapshot.tabs.eraseIdx index
      tabOrder := snapshot.tabOrder.erase tabId
      paneRoot := snapshot.paneRoot.removeLeavesByTab tabId }
    if next.tabs.length = 0 then
      successResult snapshot action { next with
        activeTabId := [], activePaneId := [], paneRoot := .null }
    else
      -- an order without a first tab has `undefined` there
      let firstTab := next.tabOrder.headD []
      let next := if next.paneRoot.isNull then
          { next with paneRoot := .newLeaf (uniquePaneId snapshot) firstTab }
        else next
      successResult snapshot action (withFirstLeaf next firstTab)

def reorderTab : SshWorkspaceReduceResult D :=
  let tabId := actionText action.tabId 96
  if tabId ∉ snapshot.tabOrder then
    errorResult snapshot action .notFound "标签不存在"
  else
    let beforeTabId := actionText action.beforeTabId 96
    if beforeTabId = tabId then unchangedResult snapshot
    else
      let rest := snapshot.tabOrder.erase tabId
      if beforeTabId = [] then
        successResult snapshot action { snapshot with
          tabOrder := rest ++ [tabId] }
      else if beforeTabId ∉ rest then
        errorResult snapshot action .notFound "目标标签不存在"
      else successResult snapshot action { snapshot with
        tabOrder := rest.insertIdx (rest.idxOf beforeTabId) tabId }

def setTabPinned : SshWorkspaceReduceResult D :=
  match tabIndex snapshot (actionText action.tabId 96), action.pinned with
  | some index, some pinned =>
    if snapshot.tabs[index]?.any (fun t => t.pinned = pinned) then
      unchangedResult snapshot
    else successResult snapshot action { snapshot with
      tabs := snapshot.tabs.modify index fun t => { t with pinned } }
  | _, _ => errorResult snapshot action .invalidAction "固定标签参数无效"

def renameTab : SshWorkspaceReduceResult D :=
  match tabIndex snapshot (actionText action.tabId 96), action.title with
  | some index, some title =>
    let title := normalizedText title 160
    if snapshot.tabs[index]?.any (fun t => t.titleOverride = title) then
      unchangedResult snapshot
    else successResult snapshot action { snapshot with
      tabs := snapshot.tabs.modify index fun t =>
        { t with titleOverride := title } }
  | _, _ => errorResult snapshot action .invalidAction "标签标题参数无效"

/-- A ratio between a fifth and four fifths. -/
def clampRatio (ratio : D) : D :=
  max (JsDouble.tenths 2) (min (JsDouble.tenths 8) ratio)

def splitPane : SshWorkspaceReduceResult D :=
  let tabId := actionText action.tabId 96
  let paneId := actionText action.paneId 96
  let splitNodeId := actionText action.splitNodeId 96
  let newLeafId := actionText action.newLeafId 96
  let incomplete :=
    errorResult snapshot action .invalidAction "分屏参数不完整"
  match action.direction, action.ratio with
  | some direction, some ratio =>
    if !validId paneId || !validId splitNodeId || !validId newLeafId
        || !validId tabId
        || (direction ≠ .horizontal && direction ≠ .vertical)
        || !JsDouble.isFinite ratio then incomplete
    else if (snapshot.paneRoot.leafById paneId).isNone
        ∨ (tabIndex snapshot tabId).isNone then
      errorResult snapshot action .notFound "Pane 或标签不存在"
    else if !(snapshot.paneRoot.paneById splitNodeId).isNull
        ∨ !(snapshot.paneRoot.paneById newLeafId).isNull
        ∨ splitNodeId = newLeafId then
      errorResult snapshot action .duplicateId "Pane ID 已存在"
    else if snapshot.paneRoot.paneContainsTab tabId then
      errorResult snapshot action .duplicateId
        "同一标签不能同时显示在多个 Pane"
    else if snapshot.paneRoot.visiblePaneCount
        ≥ SSH_WORKSPACE_MAX_VISIBLE_PANES then
      errorResult snapshot action .limitReached "可见 Pane 数量已达上限"
    else successResult snapshot action { snapshot with
      paneRoot := snapshot.paneRoot.replaceLeafWithSplit paneId splitNodeId
        newLeafId tabId direction (clampRatio ratio)
      activePaneId := newLeafId
      activeTabId := tabId }
  | _, _ => incomplete

def mergePane : SshWorkspaceReduceResult D :=
  let paneId := actionText action.paneId 96
  if (snapshot.paneRoot.leafById paneId).isNone then
    errorResult snapshot action .notFound "Pane 不存在"
  else if snapshot.paneRoot.visiblePaneCount ≤ 1 then
    errorResult snapshot action .invalidAction "最后一个 Pane 不能合并"
  else successResult snapshot action (withFirstLeaf
    { snapshot with paneRoot := snapshot.paneRoot.removeLeafById paneId } [])

def moveTab : SshWorkspaceReduceResult D :=
  let tabId := actionText action.tabId 96
  let paneId := actionText action.paneId 96
  match snapshot.paneRoot.leafById paneId, tabIndex snapshot tabId with
  | some targetTab, some _ =>
    let sourcePaneId := snapshot.paneRoot.findSource tabId []
    if sourcePaneId = paneId then unchangedResult snapshot
    else
      let root := snapshot.paneRoot.replaceLeafTab paneId tabId
      successResult snapshot action { snapshot with
        paneRoot := if sourcePaneId ≠ [] then
            root.replaceLeafTab sourcePaneId targetTab
          else root
        activePaneId := paneId
        activeTabId := tabId }
  | _, _ => errorResult snapshot action .notFound "Pane 或标签不存在"

def focusPane : SshWorkspaceReduceResult D :=
  let paneId := actionText action.paneId 96
  match snapshot.paneRoot.leafById paneId with
  | none => errorResult snapshot action .notFound "Pane 不存在"
  | some tabId => successResult snapshot action { snapshot with
      activePaneId := paneId, activeTabId := tabId }

def setSplitRatio : SshWorkspaceReduceResult D :=
  let paneId := actionText action.paneId 96
  match snapshot.paneRoot.paneById paneId, action.ratio with
  | .node _ .split _ _ _ _ _, some ratio =>
    if !JsDouble.isFinite ratio then
      errorResult snapshot action .invalidAction "分屏比例参数无效"
    else successResult snapshot action { snapshot with
      paneRoot := snapshot.paneRoot.updateSplitRatio paneId
        (clampRatio ratio) }
  | _, _ => errorResult snapshot action .invalidAction "分屏比例参数无效"

def setReconnectPolicy : SshWorkspaceReduceResult D :=
  match action.reconnectPolicy with
  | some .never => successResult snapshot action { snapshot with
      reconnectPolicy := .never }
  | some .ask => successResult snapshot action { snapshot with
      reconnectPolicy := .ask }
  | _ => errorResult snapshot action .invalidAction "恢复策略无效"

def setVisible (next : Bool → SshWorkspaceSnapshot D) :
    SshWorkspaceReduceResult D :=
  match action.visible with
  | none => errorResult snapshot action .invalidAction "可见性参数无效"
  | some visible => successResult snapshot action (next visible)

def reduceAction : SshWorkspaceReduceResult D :=
  match action.kind with
  | .renameWorkspace => renameWorkspace snapshot action
  | .openTab => openTab snapshot action
  | .activateTab => activateTab snapshot action
  | .closeTab => closeTab snapshot action
  | .reorderTab => reorderTab snapshot action
  | .setTabPinned => setTabPinned snapshot action
  | .renameTab => renameTab snapshot action
  | .splitPane => splitPane snapshot action
  | .mergePane => mergePane snapshot action
  | .moveTab => moveTab snapshot action
  | .focusPane => focusPane snapshot action
  | .setSplitRatio => setSplitRatio snapshot action
  | .setReconnectPolicy => setReconnectPolicy snapshot action
  | .setSidebarVisible => setVisible snapshot action fun visible =>
    { snapshot with sidebarVisible := visible }
  | .setInspectorVisible => setVisible snapshot action fun visible =>
    { snapshot with inspectorVisible := visible }
  | .other _ => errorResult snapshot action .invalidAction "未知工作区动作"

def reduceSshWorkspace : SshWorkspaceReduceResult D :=
  if snapshot.schemaVersion ≠ SSH_WORKSPACE_SCHEMA_VERSION then
    errorResult snapshot action .unsupportedSchema "工作区版本不受支持"
  else if (validateSshWorkspaceSnapshot snapshot).length > 0 then
    errorResult snapshot action .invalidSnapshot "工作区状态无效"
  else reduceAction snapshot action

end Reducer

end RemoteDesk.Ssh.Workspace
