/-
Stored SSH workspaces (services/ssh/workspace/SshWorkspacePolicy.ets).

Snapshots are written as they are and read with repairs: texts are trimmed
and cut once more, tabs, order and panes are rebuilt one by one, and what
does not validate is dropped. What is read of a tidy and valid snapshot is
the snapshot with its texts normalised once more (`decodeItem_json`), so it
comes back as it was exactly if no text was cut behind white space.
-/
import RemoteDesk.Ssh.WorkspaceRuns

namespace RemoteDesk.Ssh.Workspace

open Lib SshPaneNode

def SSH_WORKSPACE_MAX_SERIALIZED_BYTES : Nat := 512 * 1024

variable {D : Type} [JsDouble D]

-- ================================ encoding

def SshPaneDirection.name : SshPaneDirection → Text
  | .horizontal => codes "horizontal"
  | .vertical => codes "vertical"
  | .other name => name

def SshPaneKind.name : SshPaneKind → Text
  | .leaf => codes "leaf"
  | .split => codes "split"
  | .other name => name

def SshWorkspaceReconnectPolicy.name : SshWorkspaceReconnectPolicy → Text
  | .never => codes "never"
  | .ask => codes "ask"
  | .other name => name

def SshPaneNode.json : SshPaneNode D → Json D
  | null => .null
  | node nodeId kind tabId direction ratio first second => .obj
      [(codes "nodeId", .str nodeId),
        (codes "kind", .str kind.name),
        (codes "tabId", .str tabId),
        (codes "direction", .str direction.name),
        (codes "ratio", numberJson ratio),
        (codes "first", first.json),
        (codes "second", second.json)]

def SshWorkspaceSnapshot.members (s : SshWorkspaceSnapshot D) :
    List (Text × Json D) :=
  [(codes "schemaVersion", numberJson s.schemaVersion),
    (codes "revision", numberJson s.revision),
    (codes "workspaceId", .str s.workspaceId),
    (codes "name", .str s.name),
    (codes "tabs", .arr (s.tabs.map SshWorkspaceTab.json)),
    (codes "tabOrder", .arr (s.tabOrder.map .str)),
    (codes "paneRoot", s.paneRoot.json),
    (codes "activeTabId", .str s.activeTabId),
    (codes "activePaneId", .str s.activePaneId),
    (codes "reconnectPolicy", .str s.reconnectPolicy.name),
    (codes "sidebarVisible", .bool s.sidebarVisible),
    (codes "inspectorVisible", .bool s.inspectorVisible),
    (codes "createdAt", numberJson s.createdAt),
    (codes "updatedAt", numberJson s.updatedAt)]

def SshWorkspaceSnapshot.json (s : SshWorkspaceSnapshot D) : Json D :=
  .obj s.members

def envelopeMembers (items : List (Json D)) : List (Text × Json D) :=
  [(codes "schemaVersion", numberJson SSH_WORKSPACE_SCHEMA_VERSION),
    (codes "items", .arr items)]

def encodeSshWorkspaceSnapshots (snapshots : List (SshWorkspaceSnapshot D)) :
    Text :=
  let clean := snapshots.filter fun s => validateSshWorkspaceSnapshot s = []
  (Json.obj (envelopeMembers (clean.map SshWorkspaceSnapshot.json))).text

-- ================================ decoding

/-- A pane that was read, and the ids and tabs used up. -/
structure DecodedPane (D : Type) where
  pane : SshPaneNode D
  usedPaneIds : List Text
  usedTabIds : List Text

def decodeDirection : Option (Json D) → Option SshPaneDirection
  | some (.str name) =>
    if name = codes "horizontal" then some .horizontal
    else if name = codes "vertical" then some .vertical
    else none
  | _ => none

def decodeRatio : Option (Json D) → Option D
  | some (.num ratio) => if JsDouble.isFinite ratio then some ratio else none
  | _ => none

def isJsonNull : Option (Json D) → Bool
  | some .null => true
  | _ => false

/-- `levels` is how deep the tree may still go. -/
def decodePane (validTabIds : List Text) : Nat → Option (Json D) →
    List Text → List Text → DecodedPane D
  | 0, _, usedPaneIds, usedTabIds => ⟨.null, usedPaneIds, usedTabIds⟩
  | levels + 1, source, usedPaneIds, usedTabIds =>
    let nothing : DecodedPane D := ⟨.null, usedPaneIds, usedTabIds⟩
    match source.bind (member "nodeId"), source.bind (member "kind") with
    | some (.str rawId), some (.str kind) =>
      let nodeId := normalizedText rawId 96
      if !validId nodeId || nodeId ∈ usedPaneIds then nothing
      else if kind = codes "leaf" then
        match source.bind (member "tabId") with
        | some (.str rawTab) =>
          let tabId := normalizedText rawTab 96
          if tabId ∉ validTabIds ∨ tabId ∈ usedTabIds then nothing
          else ⟨.newLeaf nodeId tabId, addId usedPaneIds nodeId,
            addId usedTabIds tabId⟩
        | _ => nothing
      else if kind ≠ codes "split"
          ∨ isJsonNull (source.bind (member "first"))
          ∨ isJsonNull (source.bind (member "second")) then nothing
      else
        match decodeDirection (source.bind (member "direction")),
            decodeRatio (source.bind (member "ratio")) with
        | some direction, some ratio =>
          let first := decodePane validTabIds levels
            (source.bind (member "first")) (addId usedPaneIds nodeId)
            usedTabIds
          let second := decodePane validTabIds levels
            (source.bind (member "second")) first.usedPaneIds
            first.usedTabIds
          if first.pane.isNull || second.pane.isNull then
            ⟨if first.pane.isNull then second.pane else first.pane,
              second.usedPaneIds.erase nodeId, second.usedTabIds⟩
          else ⟨.node nodeId .split [] direction (clampRatio ratio)
            first.pane second.pane, second.usedPaneIds, second.usedTabIds⟩
        | _, _ => nothing
    | _, _ => nothing

def decodeTabs : List (Json D) → List SshWorkspaceTab → List SshWorkspaceTab
  | [], tabs => tabs
  | raw :: rest, tabs =>
    if tabs.length ≥ SSH_WORKSPACE_MAX_TABS then tabs
    else match normalizedTab raw with
      | none => decodeTabs rest tabs
      | some tab =>
        if tab.tabId ∈ tabs.map SshWorkspaceTab.tabId then
          decodeTabs rest tabs
        else decodeTabs rest (tabs ++ [tab])

/-- An id of the stored order. -/
def orderId : Json D → Text
  | .str raw => normalizedText raw 96
  | _ => []

def decodeOrder (tabIds : List Text) (source : List (Json D)) : List Text :=
  let listed := source.foldl (fun order raw =>
    if orderId raw ∈ tabIds ∧ orderId raw ∉ order then
      order ++ [orderId raw]
    else order) []
  tabIds.foldl addId listed

def decodeCreatedAt : Option (Json D) → D
  | some (.num d) =>
    if JsDouble.isFinite d && JsNumber.ofInt 0 ≤ d then JsDouble.floor d
    else JsNumber.ofInt 0
  | _ => JsNumber.ofInt 0

def decodeUpdatedAt (createdAt : D) : Option (Json D) → D
  | some (.num d) =>
    if JsDouble.isFinite d && createdAt ≤ d then JsDouble.floor d
    else createdAt
  | _ => createdAt

def decodeRevision : Option (Json D) → D
  | some (.num d) =>
    if isInteger d && JsNumber.ofInt 0 ≤ d then d else JsNumber.ofInt 0
  | _ => JsNumber.ofInt 0

def isJsonTrue : Option (Json D) → Bool
  | some (.bool b) => b
  | _ => false

/-- The root that was read, or one leaf for the first tab. -/
def decodeRoot (workspaceId : Text) (tabIds tabOrder : List Text)
    (source : Option (Json D)) : SshPaneNode D :=
  let root := (decodePane tabIds (SSH_WORKSPACE_MAX_PANE_DEPTH + 1) source
    [] []).pane
  if tabIds = [] then .null
  else if root.isNull then
    .newLeaf (generatedPaneBaseId workspaceId) (tabOrder.headD [])
  else root

/-- The pane asked for if it is a leaf, else the first leaf. -/
def decodeActivePane (root : SshPaneNode D) (source : Option (Json D)) :
    Text :=
  let first := (root.firstLeaf.map Prod.fst).getD []
  match source with
  | some (.str paneId) =>
    if (root.leafById paneId).isSome then paneId else first
  | _ => first

/-- A snapshot from its parts, before it is validated. -/
def decodeSnapshot (source : Json D) (workspaceId name : Text)
    (rawTabs rawOrder : List (Json D)) : SshWorkspaceSnapshot D :=
  let tabs := decodeTabs rawTabs []
  let tabOrder := decodeOrder (tabs.map SshWorkspaceTab.tabId) rawOrder
  let paneRoot := decodeRoot workspaceId (tabs.map SshWorkspaceTab.tabId)
    tabOrder (member "paneRoot" source)
  let activePaneId := decodeActivePane paneRoot (member "activePaneId" source)
  let createdAt := decodeCreatedAt (member "createdAt" source)
  { schemaVersion := SSH_WORKSPACE_SCHEMA_VERSION
    revision := decodeRevision (member "revision" source)
    workspaceId
    name
    tabs
    tabOrder
    paneRoot
    activeTabId := (paneRoot.leafById activePaneId).getD []
    activePaneId
    reconnectPolicy :=
      if isText (codes "ask") (member "reconnectPolicy" source) then .ask
      else .never
    sidebarVisible := isJsonTrue (member "sidebarVisible" source)
    inspectorVisible := isJsonTrue (member "inspectorVisible" source)
    createdAt
    updatedAt := decodeUpdatedAt createdAt (member "updatedAt" source) }

structure DecodedWorkspaceItem (D : Type) where
  snapshot : Option (SshWorkspaceSnapshot D)
  unsupported : Bool

def decodeWorkspaceItem (source : Json D) : DecodedWorkspaceItem D :=
  match member "schemaVersion" source with
  | some (.num version) =>
    if version ≠ SSH_WORKSPACE_SCHEMA_VERSION then
      ⟨none, (SSH_WORKSPACE_SCHEMA_VERSION : D) < version⟩
    else
      match member "workspaceId" source, member "name" source,
          member "tabs" source, member "tabOrder" source with
      | some (.str rawId), some (.str rawName), some (.arr rawTabs),
          some (.arr rawOrder) =>
        let workspaceId := normalizedText rawId 96
        let name := normalizedText rawName 120
        if !validId workspaceId || name.length = 0 then ⟨none, false⟩
        else
          let snapshot :=
            decodeSnapshot source workspaceId name rawTabs rawOrder
          if validateSshWorkspaceSnapshot snapshot = [] then
            ⟨some snapshot, false⟩
          else ⟨none, false⟩
      | _, _, _, _ => ⟨none, false⟩
  | _ => ⟨none, false⟩

structure SshWorkspaceDecodeResult (D : Type) where
  snapshots : List (SshWorkspaceSnapshot D)
  rejected : Nat
  unsupported : Nat

/-- The loop over the items, with the workspace ids met before. -/
def decodeItems : List (Json D) → List Text → SshWorkspaceDecodeResult D
  | [], _ => ⟨[], 0, 0⟩
  | item :: rest, workspaceIds =>
    let decoded := decodeWorkspaceItem item
    match decoded.snapshot with
    | none =>
      let result := decodeItems rest workspaceIds
      if decoded.unsupported then
        { result with unsupported := result.unsupported + 1 }
      else { result with rejected := result.rejected + 1 }
    | some snapshot =>
      if snapshot.workspaceId ∈ workspaceIds then
        let result := decodeItems rest workspaceIds
        { result with rejected := result.rejected + 1 }
      else
        let result := decodeItems rest
          (addId workspaceIds snapshot.workspaceId)
        { result with snapshots := snapshot :: result.snapshots }

/-- The items of an envelope that can be read. -/
def envelopeItems (raw : Text) : Option (List (Json D)) :=
  match parse raw with
  | none => none
  | some envelope =>
    if isNumber SSH_WORKSPACE_SCHEMA_VERSION
        (member "schemaVersion" envelope) then
      match member "items" envelope with
      | some (.arr items) => some items
      | _ => none
    else none

def decodeSshWorkspaceSnapshots (raw : Text) : SshWorkspaceDecodeResult D :=
  if Sftp.trim raw = [] ∨ raw.length > SSH_WORKSPACE_MAX_SERIALIZED_BYTES then
    ⟨[], 0, 0⟩
  else match envelopeItems raw with
    | none => ⟨[], 1, 0⟩
    | some items => decodeItems items []

end RemoteDesk.Ssh.Workspace
