import DrepTalk.Library.Table
import Mathlib.Data.List.Infix
import Mathlib.Data.List.Sort

/-!
# Pinned metadata documents

The rows of `gov_action_metadata` and their statements (`src/lib/db/govActionMetadata.ts`): one row
for each pinned document, with the file id that the pinning service gave it and the time it was last
handed to a submitter. A row whose document no governance action anchors is collectable some time
after that; a run that collects it first claims it, with a lease.

The body of a document is left out, as nothing reads it here.
-/

namespace DrepTalk

inductive GovActionMetadataKind
  | cip108
  | constitution
  deriving DecidableEq

/-- A row of `gov_action_metadata`. -/
structure PinRow where
  hash : String
  cid : String
  kind : GovActionMetadataKind
  createdAt : ℤ
  lastServedAt : ℤ
  pinataFileId : Option String
  deletingAt : Option ℤ
  deleteAttempts : ℕ
  deriving DecidableEq

abbrev PinTable := KeyedTable fun r : PinRow => r.hash

/-- A mirrored governance action, by the columns that are read. -/
structure MirroredAction where
  type : String
  anchorHash : Option String
  onchainPayload : Option String

/-- `instr(text, part) > 0`. -/
def occursIn (part text : String) : Bool := decide (part.toList <:+: text.toList)

/-- A mirrored action has the hash as its anchor hash, or its constitution contains it. -/
def isAnchored (actions : List MirroredAction) (hash : String) : Bool :=
  actions.any (fun a => a.anchorHash == some hash) ||
    actions.any fun a => a.type == "NewConstitution" && a.onchainPayload.any (occursIn hash)

/-! ### The submitter -/

/-- The row is handed out: not while it is claimed. -/
def PinRow.isServed (hash : String) (r : PinRow) : Bool := r.hash == hash && r.deletingAt.isNone

/-- The table after a document was asked for. -/
def serveGovActionMetadata (pins : PinTable) (hash : String) (now : ℤ) : PinTable :=
  pins.updateWhere (·.isServed hash) (fun r => { r with lastServedAt := now }) fun _ _ => rfl

def servedCid (pins : PinTable) (hash : String) : Option (String × GovActionMetadataKind) :=
  (pins.rows.find? (·.isServed hash)).map fun r => (r.cid, r.kind)

structure GovActionMetadata where
  hash : String
  cid : String
  createdAt : ℤ
  pinataFileId : Option String
  kind : Option GovActionMetadataKind

def putGovActionMetadata (pins : PinTable) (rec : GovActionMetadata) : PinTable :=
  pins.insertOrIgnore
    { hash := rec.hash
      cid := rec.cid
      kind := rec.kind.getD .cip108
      createdAt := rec.createdAt
      lastServedAt := rec.createdAt
      pinataFileId := rec.pinataFileId
      deletingAt := none
      deleteAttempts := 0 }

/-! ### The collector -/

/-- No claim, or one that is older than the cutoff. -/
def PinRow.isClaimable (staleClaimCutoff : ℤ) (r : PinRow) : Bool :=
  r.deletingAt.all fun at_ => decide (at_ < staleClaimCutoff)

/-- `COLLECTABLE_WHERE`. -/
def PinRow.isCollectable (actions : List MirroredAction) (graceCutoff staleClaimCutoff : ℤ)
    (r : PinRow) : Bool :=
  r.pinataFileId.isSome && r.isClaimable staleClaimCutoff && decide (r.lastServedAt < graceCutoff) &&
    !isAnchored actions r.hash

/-- Fewest attempts first, then the one that was not served for the longest time. -/
def pinBefore (a b : PinRow) : Prop :=
  a.deleteAttempts < b.deleteAttempts ∨
    a.deleteAttempts = b.deleteAttempts ∧ a.lastServedAt ≤ b.lastServedAt

instance : DecidableRel pinBefore := fun _ _ => inferInstanceAs (Decidable (_ ∨ _))

/-- The rows to collect, and how many there are. The code takes their hashes and file ids. -/
def getCollectablePins (pins : PinTable) (actions : List MirroredAction)
    (graceCutoff staleClaimCutoff : ℤ) (limit : ℕ) : List PinRow × ℕ :=
  let rows := pins.rows.filter (·.isCollectable actions graceCutoff staleClaimCutoff)
  ((rows.insertionSort pinBefore).take limit, rows.length)

/-- The claim, and whether it was made. -/
def markPinDeleting (pins : PinTable) (hash : String) (now staleClaimCutoff : ℤ) : PinTable × Bool :=
  let p (r : PinRow) : Bool := r.hash == hash && r.isClaimable staleClaimCutoff
  (pins.updateWhere p (fun r => { r with deletingAt := some now }) fun _ _ => rfl, pins.rows.any p)

def releasePinDeleting (pins : PinTable) (hash : String) : PinTable :=
  pins.updateWhere (·.hash == hash)
    (fun r => { r with deletingAt := none, deleteAttempts := r.deleteAttempts + 1 }) fun _ _ => rfl

def disownPin (pins : PinTable) (hash : String) : PinTable :=
  pins.updateWhere (·.hash == hash)
    (fun r => { r with pinataFileId := none, deletingAt := none }) fun _ _ => rfl

def deleteGovActionMetadata (pins : PinTable) (hash : String) : PinTable :=
  pins.deleteWhere (·.hash == hash)

/-! ### What the statements leave -/

section

variable {pins : PinTable} {hash : String} {r : PinRow}

variable {graceCutoff staleClaimCutoff now : ℤ}

theorem mem_getCollectablePins {actions : List MirroredAction} {limit : ℕ}
    (h : r ∈ (getCollectablePins pins actions graceCutoff staleClaimCutoff limit).1) :
    r ∈ pins.rows ∧ r.isCollectable actions graceCutoff staleClaimCutoff = true :=
  List.mem_filter.mp ((List.mem_insertionSort _).mp (List.mem_of_mem_take h))

theorem isCollectable_iff {actions : List MirroredAction} :
    r.isCollectable actions graceCutoff staleClaimCutoff = true ↔
      r.pinataFileId.isSome = true ∧ r.isClaimable staleClaimCutoff = true ∧
        r.lastServedAt < graceCutoff ∧ isAnchored actions r.hash = false := by
  simp only [PinRow.isCollectable, Bool.and_eq_true, decide_eq_true_eq, Bool.not_eq_true', and_assoc]

theorem mem_serve : r ∈ (serveGovActionMetadata pins hash now).rows ↔
    (r ∈ pins.rows ∧ r.isServed hash = false) ∨
      ∃ r₀ ∈ pins.rows, r₀.isServed hash = true ∧ r = { r₀ with lastServedAt := now } :=
  Table.mem_updateWhere

theorem mem_mark :
    r ∈ (markPinDeleting pins hash now staleClaimCutoff).1.rows ↔
      (r ∈ pins.rows ∧ (r.hash == hash && r.isClaimable staleClaimCutoff) = false) ∨
        ∃ r₀ ∈ pins.rows, (r₀.hash == hash && r₀.isClaimable staleClaimCutoff) = true ∧
          r = { r₀ with deletingAt := some now } :=
  Table.mem_updateWhere

theorem mem_release : r ∈ (releasePinDeleting pins hash).rows ↔
    (r ∈ pins.rows ∧ (r.hash == hash) = false) ∨ ∃ r₀ ∈ pins.rows, (r₀.hash == hash) = true ∧
      r = { r₀ with deletingAt := none, deleteAttempts := r₀.deleteAttempts + 1 } :=
  Table.mem_updateWhere

theorem mem_disown : r ∈ (disownPin pins hash).rows ↔
    (r ∈ pins.rows ∧ (r.hash == hash) = false) ∨ ∃ r₀ ∈ pins.rows, (r₀.hash == hash) = true ∧
      r = { r₀ with pinataFileId := none, deletingAt := none } :=
  Table.mem_updateWhere

theorem mem_drop : r ∈ (deleteGovActionMetadata pins hash).rows ↔
    r ∈ pins.rows ∧ (r.hash == hash) = false :=
  Table.mem_deleteWhere

end

end DrepTalk
