/-
The SFTP batch policy (services/SshSftpBatchPolicy.ets).

# Paths

Strings are their UTF-16 units. Both normalisers walk the components of a
path with one loop (`segmentsFrom`); `normalizeSshSftpRemotePath` trims
its argument first, `normalizedSegments` does not.

# Numbers

A `number` is an integer, or `none` where it is not finite. Byte totals
are added as doubles are: sums above 2^53 are rounded (`toDouble`).
`localeCompare` is a parameter; the sort is stable.

The conflict decisions and keep-both names are left out: nothing here
calls them.
-/
import RemoteDesk.Lib.AddressText
import RemoteDesk.Lib.Trim

namespace RemoteDesk.Sftp

open Lib

-- ================================= numbers

abbrev Number := Option Int

/-- The double nearest to a natural number, ties to even. -/
def toDouble (n : Nat) : Nat :=
  if n ≤ 2 ^ 53 then n
  else
    let unit := 2 ^ (n.log2 - 52)
    let q := n / unit
    let r := n % unit
    (if 2 * r > unit ∨ (2 * r = unit ∧ q % 2 = 1) then q + 1 else q) * unit

-- =================================== texts

/-- What `trim` takes for white space. -/
def isSpace (u : Nat) : Bool :=
  (9 ≤ u && u ≤ 13) || u = 0x20 || u = 0xa0 || u = 0x1680
    || (0x2000 ≤ u && u ≤ 0x200a) || u = 0x2028 || u = 0x2029 || u = 0x202f
    || u = 0x205f || u = 0x3000 || u = 0xfeff

def trim (text : List Nat) : List Nat := trimBy isSpace text

/-- `replace(/\\/g, '/')`. -/
def slashes (path : List Nat) : List Nat :=
  path.map fun u => if u = 92 then 47 else u

/-- The loop over the parts of a path; `none` above the root. -/
def segmentsFrom : List (List Nat) → List (List Nat) →
    Option (List (List Nat))
  | result, [] => some result
  | result, part :: rest =>
    if part = [] ∨ part = codes "." then segmentsFrom result rest
    else if part = codes ".." then
      if result = [] then none else segmentsFrom result.dropLast rest
    else segmentsFrom (result ++ [part]) rest

def normalizedSegments (path : List Nat) (allowAbsolute : Bool) :
    Option (List (List Nat)) :=
  if path = [] ∨ 0 ∈ path then none
  else if !allowAbsolute
      ∧ (path.head? = some 47 ∨ path.head? = some 92) then none
  else match segmentsFrom [] ((slashes path).splitOn 47) with
    | none => none
    | some result => if result = [] then none else some result

def normalizeSshSftpRemotePath (path : List Nat) : Option (List Nat) :=
  if trim path = [] ∨ 0 ∈ path then none
  else
    let raw := slashes (trim path)
    let absolute := raw.head? = some 47
    match segmentsFrom [] (raw.splitOn 47) with
    | none => none
    | some result =>
      if result = [] then some (if absolute then codes "/" else codes ".")
      else some ((if absolute then codes "/" else [])
        ++ [47].intercalate result)

def joinSshSftpRemotePath (parent child : List Nat) : Option (List Nat) :=
  match normalizeSshSftpRemotePath parent with
  | none => none
  | some normalizedParent =>
    match normalizedSegments child false with
    | some [part] =>
      let joined :=
        if normalizedParent = codes "/" then codes "/" ++ part
        else if normalizedParent = codes "." then codes "./" ++ part
        else normalizedParent ++ codes "/" ++ part
      normalizeSshSftpRemotePath joined
    | _ => none

/-- The loop that joins the parts one by one. -/
def joinParts : List Nat → List (List Nat) → Option (List Nat)
  | current, [] => some current
  | current, part :: rest =>
    match joinSshSftpRemotePath current part with
    | none => none
    | some next => joinParts next rest

def joinSshSftpRelativeRemotePath (parent relativePath : List Nat) :
    Option (List Nat) :=
  match normalizeSshSftpRemotePath parent,
      normalizedSegments relativePath false with
  | some normalizedParent, some parts => joinParts normalizedParent parts
  | _, _ => none

-- ================================= batches

structure SshSftpBatchLimits where
  maxDepth : Number := some 32
  maxItems : Number := some 10000
  maxFiles : Number := some 5000
  maxTotalBytes : Number := some (10 * 1024 * 1024 * 1024)
  maxSingleFileBytes : Number := some (4 * 1024 * 1024 * 1024)
  maxPathLength : Number := some 2048
  allowSymbolicLinks : Bool := false
  allowSpecialFiles : Bool := false
deriving DecidableEq, Repr

structure SshSftpTreeItem where
  relativePath : List Nat
  name : List Nat
  isDirectory : Bool := false
  isSymbolicLink : Bool := false
  isSpecialFile : Bool := false
  size : Number := some 0
  mtime : Number := some 0
  mode : Number := some 0
  uid : Number := some 0
  gid : Number := some 0
deriving DecidableEq, Repr

structure SshSftpBatchPlan where
  accepted : Bool
  reason : String := ""
  rejectedPath : List Nat := []
  items : List SshSftpTreeItem := []
  fileCount : Nat := 0
  totalBytes : Nat := 0
deriving DecidableEq, Repr

def invalidPlan (reason : String) (path : List Nat) : SshSftpBatchPlan :=
  { accepted := false, reason, rejectedPath := path }

/-- A limit that must be above zero. -/
def positive (n : Number) : Bool := n.any fun i => i > 0

/-- A limit that must not be below zero. -/
def nonnegative (n : Number) : Bool := n.any fun i => i ≥ 0

/-- A count against a limit known to be finite. -/
def above (n : Nat) (limit : Number) : Bool := limit.any fun i => (n : Int) > i

def validLimits (limits : SshSftpBatchLimits) : Bool :=
  positive limits.maxDepth && positive limits.maxItems
    && positive limits.maxFiles && nonnegative limits.maxTotalBytes
    && nonnegative limits.maxSingleFileBytes && positive limits.maxPathLength

structure SshSftpRelativePathInfo where
  valid : Bool
  depth : Nat
  normalized : List Nat
  reason : String
deriving DecidableEq, Repr

def relativePathInfo (path : List Nat) (limits : SshSftpBatchLimits) :
    SshSftpRelativePathInfo :=
  if path = [] ∨ above path.length limits.maxPathLength then
    ⟨false, 0, [], "path-length"⟩
  else match normalizedSegments path false with
    | none => ⟨false, 0, [], "path-traversal"⟩
    | some parts =>
      let normalized := [47].intercalate parts
      if above normalized.length limits.maxPathLength then
        ⟨false, parts.length, [], "path-length"⟩
      else ⟨true, parts.length, normalized, ""⟩

def hasPathPrefix (items : List SshSftpTreeItem) (path : List Nat) : Bool :=
  items.any fun item =>
    item.relativePath ≠ path && (path ++ codes "/").isPrefixOf item.relativePath

/-- The variables of the loop. -/
structure BatchState where
  accepted : List SshSftpTreeItem := []
  fileCount : Nat := 0
  totalBytes : Nat := 0
deriving DecidableEq, Repr

/-- What the loop refuses an item for before it counts it, and the path it
names. -/
def itemReason (limits : SshSftpBatchLimits) (item : SshSftpTreeItem) :
    Option (String × List Nat) :=
  let info := relativePathInfo item.relativePath limits
  if !info.valid then some (info.reason, item.relativePath)
  else if above info.depth limits.maxDepth then
    some ("depth-limit", info.normalized)
  else if trim item.name = [] ∨ 47 ∈ item.name ∨ 92 ∈ item.name
      ∨ 0 ∈ item.name then
    some ("invalid-name", info.normalized)
  else if item.isSymbolicLink ∧ !limits.allowSymbolicLinks then
    some ("symbolic-link-not-allowed", info.normalized)
  else if item.isSpecialFile ∧ !limits.allowSpecialFiles then
    some ("special-file-not-allowed", info.normalized)
  else if !item.isDirectory then
    if !nonnegative item.size then some ("unknown-file-size", info.normalized)
    else if above (item.size.getD 0).toNat limits.maxSingleFileBytes then
      some ("single-file-limit", info.normalized)
    else none
  else none

/-- One round of the loop: the state after it, or why the plan is
refused. -/
def planItem (limits : SshSftpBatchLimits) (s : BatchState)
    (item : SshSftpTreeItem) : Except (String × List Nat) BatchState :=
  let info := relativePathInfo item.relativePath limits
  match itemReason limits item with
  | some refusal => .error refusal
  | none =>
    let fileCount := if item.isDirectory then s.fileCount else s.fileCount + 1
    let totalBytes := if item.isDirectory then s.totalBytes
      else toDouble (s.totalBytes + (item.size.getD 0).toNat)
    if !item.isDirectory ∧ above fileCount limits.maxFiles then
      .error ("file-limit", info.normalized)
    else if !item.isDirectory ∧ above totalBytes limits.maxTotalBytes then
      .error ("total-size-limit", info.normalized)
    else if s.accepted.any fun previous =>
        previous.relativePath = info.normalized then
      .error ("duplicate-path", info.normalized)
    else
      .ok ⟨s.accepted ++ [{ item with relativePath := info.normalized }],
        fileCount, totalBytes⟩

def planItems (limits : SshSftpBatchLimits) : BatchState →
    List SshSftpTreeItem → Except (String × List Nat) BatchState
  | s, [] => .ok s
  | s, item :: items =>
    match planItem limits s item with
    | .error refusal => .error refusal
    | .ok s => planItems limits s items

def planSshSftpBatch (localeCompare : List Nat → List Nat → Int)
    (items : List SshSftpTreeItem) (limits : SshSftpBatchLimits) :
    SshSftpBatchPlan :=
  if !validLimits limits then invalidPlan "invalid-limits" []
  else if items = [] then invalidPlan "empty-batch" []
  else if above items.length limits.maxItems then invalidPlan "item-limit" []
  else match planItems limits {} items with
  | .error (reason, path) => invalidPlan reason path
  | .ok s =>
    match s.accepted.find? fun item =>
        !item.isDirectory && hasPathPrefix s.accepted item.relativePath with
    | some item => invalidPlan "file-directory-conflict" item.relativePath
    | none =>
      { accepted := true
        items := s.accepted.mergeSort fun left right =>
          localeCompare left.relativePath right.relativePath ≤ 0
        fileCount := s.fileCount
        totalBytes := s.totalBytes }

end RemoteDesk.Sftp
