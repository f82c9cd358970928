import DrepTalk.Library.Table
import DrepTalk.Text.JsText
import Mathlib.Data.List.Sort

/-!
# drep.link handles

A short name that redirects to the profile of a DRep: `drep_handles` holds a primary handle per
DRep, and the one it had before until its `released_at`. A row is **live** while `released_at` is
NULL or later than now (`HandleRow.isLive`); an expired row counts as free before it is deleted.

**The rules** of a change (`checkClaimPolicy`) are checked on rows that a request has read. **The
write** (`writeClaim`) is one batch whose only guards are the two keys of the table: it drops the
DRep's own expired rows, frees the handle, demotes the primary that was read, and inserts the new
one, or it is rolled back (`none`).

The gov-sync phase hands out handles (`insertAutoChunk`) and runs the grace period
(`runHandleLifecycle`).
-/

namespace DrepTalk

/-! ### Names -/

def HANDLE_MIN : ℕ := 3
def HANDLE_MAX : ℕ := 40
def GRACE_SEC : ℤ := 180 * 86400
def COOLDOWN_SEC : ℤ := 90 * 86400

/-- `[a-z0-9]`. -/
def isHandleChar (c : Char) : Bool :=
  decide ('a' ≤ c) && decide (c ≤ 'z') || decide ('0' ≤ c) && decide (c ≤ '9')

/-- `SHAPE`: `/^[a-z0-9]+(-[a-z0-9]+)*$/`. -/
def hasShape (h : Text) : Bool :=
  (h.splitOn '-').all fun part => !part.isEmpty && part.all isHandleChar

def unhyphen (h : Text) : Text := h.filter (· != '-')

/-- Names that neither the automatic assignment nor a claim may take. -/
def RESERVED_HANDLES : List String :=
  ["api", "www", "admin", "help", "about", "login", "settings", "search", "dreps", "drep",
    "dreptalk", "robots-txt", "favicon-ico", "static", "assets", "status", "support", "official",
    "intersect", "intersectmbo", "iohk", "iog", "ioe", "input-output", "input-output-global",
    "emurgo", "cardano", "cardano-foundation", "cardano-org", "cf", "govtool", "catalyst",
    "project-catalyst", "midnight", "lace", "eternl", "typhon", "vespr", "yoroi", "sundaeswap",
    "minswap", "liqwid", "gimbalabs", "charles", "hoskinson", "charles-hoskinson"]

def RESERVED_FLAT : List Text := RESERVED_HANDLES.map fun h => unhyphen h.toList

/-- `ID_NAMESPACE`: `/^drep1/`. -/
def inIdNamespace (h : Text) : Bool := "drep1".toList.isPrefixOf h

/-- The DReps that keep a name below the minimum. -/
def GRANDFATHERED : List (Text × String) :=
  [("p".toList, "drep1yftc8zs7gjcj4a9nxzplz4wg6cwweya0kxp8adnw59vsyrqvrysud"),
    ("42".toList, "drep1y26ppxzudkhtak4y7kc2rag9ezq7szje78aetxge3pg5w7qwthkqv")]

/-- Why a claim is refused; the first four are those of `validateHandle`. -/
inductive ClaimError
  | shape
  | length
  | id_namespace
  | reserved
  | unchanged
  | cooldown
  | previous_pending
  deriving DecidableEq

/-- What is wrong with a normalized handle, if anything. -/
def validateHandle (handle : Text) (drepId : Option String) : Option ClaimError :=
  let grandfathered := GRANDFATHERED.lookup handle
  if !hasShape handle then some .shape
  else if handle.length < HANDLE_MIN ∧ ¬(grandfathered.isSome ∧ grandfathered = drepId) then
    some .length
  else if HANDLE_MAX < handle.length then some .length
  else if inIdNamespace handle then some .id_namespace
  else if RESERVED_FLAT.contains (unhyphen handle) then some .reserved
  else none

/-! ### The tables -/

inductive HandleSource
  | seed
  | auto
  | claim
  | manual
  deriving DecidableEq

/-- A row of `drep_handles`. -/
structure HandleRow where
  handle : Text
  drepId : String
  source : HandleSource
  isPrimary : Bool
  releasedAt : Option ℤ
  createdAt : ℤ
  updatedAt : ℤ

/-- The key of `idx_drep_handles_primary`: the DRep of a primary row. -/
def HandleRow.primaryOf (r : HandleRow) : Option String :=
  if r.isPrimary then some r.drepId else none

/-- `drep_handles`: the handle is its primary key, and a DRep has one primary. -/
abbrev HandleTable := PartlyKeyedTable HandleRow.handle HandleRow.primaryOf

/-- `LIVE`. -/
def HandleRow.isLive (now : ℤ) (r : HandleRow) : Bool :=
  match r.releasedAt with
  | none => true
  | some releasedAt => decide (now < releasedAt)

/-- `EXPIRED`. -/
def HandleRow.isExpired (now : ℤ) (r : HandleRow) : Bool :=
  match r.releasedAt with
  | none => false
  | some releasedAt => decide (releasedAt ≤ now)

/-- What is read and stamped of `dreps`. -/
structure HandleDrep where
  drepId : String
  status : String
  slug : Option String
  handleAutoAt : Option ℤ

abbrev HandleDrepTable := KeyedTable HandleDrep.drepId

def getDrepById (dreps : HandleDrepTable) (drepId : String) : Option HandleDrep :=
  dreps.rows.find? (·.drepId == drepId)

/-- The DRep a live handle points at, with its slug. -/
def resolveHandle (t : HandleTable) (dreps : HandleDrepTable) (handle : Text) (now : ℤ) :
    Option (String × Option String) :=
  (t.rows.find? fun r => r.handle == handle && r.isLive now).map fun r =>
    (r.drepId, (getDrepById dreps r.drepId).bind (·.slug))

/-- `ORDER BY is_primary DESC, released_at DESC`. -/
def handleOrder (r r' : HandleRow) : Bool :=
  if r.isPrimary != r'.isPrimary then r.isPrimary
  else
    match r.releasedAt, r'.releasedAt with
    | some a, some b => decide (b ≤ a)
    | some _, none => true
    | none, some _ => false
    | none, none => true

def listDrepHandles (t : HandleTable) (drepId : String) (now : ℤ) : List HandleRow :=
  (t.rows.filter fun r => r.drepId == drepId && r.isLive now).insertionSort
    fun r r' => handleOrder r r' = true

def getPrimaryHandle (t : HandleTable) (drepId : String) (now : ℤ) : Option Text :=
  (t.rows.find? fun r => r.drepId == drepId && r.isPrimary && r.isLive now).map (·.handle)

/-! ### The rules of a change -/

def cooldownUntil (primary : Option HandleRow) : Option ℤ :=
  match primary with
  | none => none
  | some primary =>
    if primary.source ≠ .claim ∧ primary.source ≠ .manual then none
    else some (primary.createdAt + COOLDOWN_SEC)

/-- The primary among the rows that were read. -/
def primaryAmong (rows : List HandleRow) : Option HandleRow := rows.find? (·.isPrimary)

/-- Why the DRep may not change to the handle, with the time until which. -/
def checkClaimPolicy (handle : Text) (drepId : String) (rows : List HandleRow) (now : ℤ) :
    Option (ClaimError × Option ℤ) :=
  match validateHandle handle (some drepId) with
  | some reason => some (reason, none)
  | none =>
    let primary := primaryAmong rows
    if primary.map (·.handle) = some handle then some (.unchanged, none)
    else if ∃ t ∈ cooldownUntil primary, now < t then some (.cooldown, cooldownUntil primary)
    else
      match rows.find? fun r => !r.isPrimary && r.handle != handle with
      | some previous => some (.previous_pending, previous.releasedAt)
      | none => none

/-! ### The writes -/

/-- What `writeClaim` is given. -/
structure ClaimWrite where
  drepId : String
  handle : Text
  expectedCurrent : Option Text
  now : ℤ

def ClaimWrite.row (a : ClaimWrite) : HandleRow :=
  ⟨a.handle, a.drepId, .claim, true, none, a.now, a.now⟩

/-- A primary that has been demoted into its grace period. -/
def HandleRow.demoted (now : ℤ) (r : HandleRow) : HandleRow :=
  { r with isPrimary := false, releasedAt := some (now + GRACE_SEC), updatedAt := now }

def dropOwnExpired (t : HandleTable) (a : ClaimWrite) : HandleTable :=
  t.deleteWhere fun r => r.drepId == a.drepId && r.isExpired a.now

/-- The handle is freed where it is expired, or the DRep's own previous one. -/
def freeHandle (t : HandleTable) (a : ClaimWrite) : HandleTable :=
  t.deleteWhere fun r =>
    r.handle == a.handle && (r.isExpired a.now || r.drepId == a.drepId && !r.isPrimary)

/-- The primary that was read is demoted. -/
def demoteCurrent (t : HandleTable) (a : ClaimWrite) : HandleTable :=
  t.updateWhere
    (fun r => r.drepId == a.drepId && r.isPrimary && some r.handle == a.expectedCurrent)
    (HandleRow.demoted a.now) (fun _ _ => rfl) fun _ _ => .inr rfl

/-- The batch of `writeClaim`. -/
def writeClaim (t : HandleTable) (a : ClaimWrite) : Option HandleTable :=
  (demoteCurrent (freeHandle (dropOwnExpired t a) a) a).insert a.row

structure AutoHandle where
  drepId : String
  handle : Text

def AUTO_CHUNK : ℕ := 50

def AutoHandle.row (now : ℤ) (r : AutoHandle) : HandleRow :=
  ⟨r.handle, r.drepId, .auto, true, none, now, now⟩

/-- Expired rows of the handles are cleared. -/
def clearExpiredAuto (now : ℤ) (chunk : List AutoHandle) (t : HandleTable) : HandleTable :=
  chunk.foldl (fun t r => t.deleteWhere fun row => row.handle == r.handle && row.isExpired now) t

/-- A batch of `insertAutoHandles`. -/
def insertAutoChunk (now : ℤ) (chunk : List AutoHandle) (t : HandleTable) : HandleTable :=
  chunk.foldl (fun t r => t.insertOrIgnore (r.row now)) (clearExpiredAuto now chunk t)

def insertedBy (now : ℤ) (chunk : List AutoHandle) (t : HandleTable) : ℕ :=
  (insertAutoChunk now chunk t).rows.length - (clearExpiredAuto now chunk t).rows.length

/-- The DReps that have been decided on are stamped. -/
def stampDecided (now : ℤ) (decided : List String) (dreps : HandleDrepTable) : HandleDrepTable :=
  dreps.updateWhere (fun d => decided.contains d.drepId)
    (fun d => { d with handleAutoAt := some now }) fun _ _ => rfl

/-- Whether the DRep of a row has the one kind of status, or the other. -/
def HandleRow.hasDrep (dreps : HandleDrepTable) (registered : Bool) (r : HandleRow) : Bool :=
  dreps.rows.any fun d => d.drepId == r.drepId && (d.status == "registered") == registered

/-- The rows whose grace period starts. -/
def startsGrace (dreps : HandleDrepTable) (r : HandleRow) : Bool :=
  r.releasedAt.isNone && r.hasDrep dreps false

def startGrace (now : ℤ) (dreps : HandleDrepTable) (t : HandleTable) : HandleTable :=
  t.updateWhere (startsGrace dreps)
    (fun r => { r with releasedAt := some (now + GRACE_SEC), updatedAt := now }) (fun _ _ => rfl)
    fun _ _ => .inl rfl

def isRestored (now : ℤ) (dreps : HandleDrepTable) (r : HandleRow) : Bool :=
  r.isPrimary && r.releasedAt.isSome && r.isLive now && r.hasDrep dreps true

def restore (now : ℤ) (dreps : HandleDrepTable) (t : HandleTable) : HandleTable :=
  t.updateWhere (isRestored now dreps) (fun r => { r with releasedAt := none, updatedAt := now })
    (fun _ _ => rfl) fun _ _ => .inl rfl

/-- What `runHandleLifecycle` answers. -/
structure HandleCycle where
  released : ℕ
  restored : ℕ
  deleted : ℕ

/-- The batch of `runHandleLifecycle`. -/
def runHandleLifecycle (now : ℤ) (dreps : HandleDrepTable) (t : HandleTable) :
    HandleTable × HandleCycle :=
  let released := startGrace now dreps t
  let restored := restore now dreps released
  (restored.deleteWhere (HandleRow.isExpired now),
    ⟨t.rows.countP (startsGrace dreps), released.rows.countP (isRestored now dreps),
      restored.rows.countP (HandleRow.isExpired now)⟩)

end DrepTalk
