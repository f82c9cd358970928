import DrepTalk.Library.Table
import Mathlib.Data.Int.Notation

/-!
# The rows of the DReps

`src/lib/db/dreps.ts`: one row per DRep, with what the chain says of it (`ChainState`), what its
profile document says and where that comes from (`ResolvedProfile`), and the stored avatar. The
sync upserts whole rows, and the other writers update some of the columns.

Of the columns that the upsert does not write, only the count of failed downloads is kept: the
others belong to backfills that nothing here reads. `links` is a column of JSON text, and is taken
together with its parsing.
-/

namespace DrepTalk

structure DrepLink where
  label : String
  uri : String
  deriving DecidableEq

/-- How the fetch of an anchor fails: an `AnchorStatus` other than `ok`. -/
inductive AnchorMiss
  | unsupported_url
  | fetch_failed
  | rate_limited
  | too_large
  | bad_content_type
  | hash_mismatch
  | parse_failed
  deriving DecidableEq

/-- What the sync records of an anchor: how its fetch ended, that it waits for a later run, or that
there is none. -/
inductive DrepAnchorStatus
  | ok
  | missed (miss : AnchorMiss)
  | deferred
  | no_anchor
  deriving DecidableEq

/-- The columns that the chain decides. -/
structure ChainState where
  drepId : String
  hex : Option String
  hasScript : Bool
  status : String
  active : Bool
  deposit : Option String
  votingPower : Option String
  expiresEpochNo : Option ℤ
  delegatorCount : Option ℕ
  delegatorCountSyncedAt : Option ℤ
  deriving DecidableEq

structure ProfileText where
  name : Option String
  bio : Option String
  links : Option (List DrepLink)
  motivations : Option String
  qualifications : Option String
  paymentAddress : Option String
  doNotList : Bool
  deriving DecidableEq

/-- `ResolvedProfile`: the columns that a profile document decides. -/
structure ResolvedProfile extends ProfileText where
  imageUrl : Option String
  imageContentHash : Option String
  imageStoredUrl : Option String
  anchorUrl : Option String
  anchorHash : Option String
  anchorStatus : DrepAnchorStatus
  profileExtractVersion : ℕ
  deriving DecidableEq

/-- `UpsertDrepArgs`: a row as the sync writes it. -/
structure Drep extends ChainState, ResolvedProfile where
  imageFetchFailedAt : Option ℤ
  metadataLastUpdatedAt : Option ℤ
  lastSyncedAt : ℤ
  createdAt : ℤ
  deriving DecidableEq

/-- A row of `dreps`. -/
structure StoredDrep extends Drep where
  imageFetchAttempts : ℕ
  deriving DecidableEq

abbrev DrepTable := KeyedTable fun r : StoredDrep => r.drepId

/-- What the upsert makes of a row that is there. -/
def Drep.merge (args : Drep) (row : StoredDrep) : StoredDrep where
  toDrep :=
    { args with
      metadataLastUpdatedAt := args.metadataLastUpdatedAt <|> row.metadataLastUpdatedAt
      createdAt := row.createdAt }
  imageFetchAttempts := row.imageFetchAttempts

def buildDrepUpsertStatement (dreps : DrepTable) (args : Drep) : DrepTable :=
  dreps.upsert ⟨args, 0⟩ args.merge fun _ h => h.symm

/-- The row of a DRep: `getDrepById`. -/
def drepById (dreps : DrepTable) (drepId : String) : Option StoredDrep :=
  dreps.rows.find? fun r => r.drepId == drepId

theorem drepById_eq_some {dreps : DrepTable} {drepId : String} {row : StoredDrep} :
    drepById dreps drepId = some row ↔ row ∈ dreps.rows ∧ row.drepId = drepId :=
  dreps.find?_eq_some fun _ => beq_iff_eq

theorem drepById_eq_none {dreps : DrepTable} {drepId : String} :
    drepById dreps drepId = none ↔ ∀ row ∈ dreps.rows, row.drepId ≠ drepId := by
  simp [drepById]

theorem drepById_upsert (dreps : DrepTable) (args : Drep) (drepId : String) :
    drepById (buildDrepUpsertStatement dreps args) drepId =
      if args.drepId = drepId then
        some (((drepById dreps drepId).map args.merge).getD ⟨args, 0⟩)
      else drepById dreps drepId := by
  have hkey : ∀ r : StoredDrep, r.drepId = args.drepId → (args.merge r).drepId = r.drepId :=
    fun _ h => h.symm
  have hmem : ∀ r, r ∈ (buildDrepUpsertStatement dreps args).rows ↔
      (r ∈ dreps.rows ∧ r.drepId ≠ args.drepId) ∨
        (∃ r₀ ∈ dreps.rows, r₀.drepId = args.drepId ∧ r = args.merge r₀) ∨
          r = ⟨args, 0⟩ ∧ args.drepId ∉ dreps.rows.map (·.drepId) := fun r =>
    KeyedTable.mem_upsert hkey
  rcases hold : drepById dreps drepId with _ | row
  · have hnone := drepById_eq_none.mp hold
    split_ifs with h
    · refine drepById_eq_some.mpr ⟨(hmem _).mpr (.inr (.inr ⟨rfl, fun htaken => ?_⟩)), h⟩
      obtain ⟨r, hr, hkey⟩ := List.mem_map.mp htaken
      exact hnone r hr (hkey.trans h)
    · refine drepById_eq_none.mpr fun r hr => ?_
      rcases (hmem r).mp hr with ⟨hr, -⟩ | ⟨r₀, -, -, rfl⟩ | ⟨rfl, -⟩
      · exact hnone r hr
      · exact h
      · exact h
  · obtain ⟨hrow, hkey⟩ := drepById_eq_some.mp hold
    split_ifs with h
    · exact drepById_eq_some.mpr
        ⟨(hmem _).mpr (.inr (.inl ⟨row, hrow, hkey.trans h.symm, rfl⟩)), h⟩
    · exact drepById_eq_some.mpr
        ⟨(hmem _).mpr (.inl ⟨hrow, fun hargs => h (hargs.symm.trans hkey)⟩), hkey⟩

theorem drepById_updateWhere (dreps : DrepTable) {p : StoredDrep → Bool}
    {f : StoredDrep → StoredDrep} (hkey : ∀ r, p r = true → (f r).drepId = r.drepId)
    (drepId : String) : drepById (dreps.updateWhere p f hkey) drepId =
      (drepById dreps drepId).map fun row => if p row then f row else row := by
  have hkeeps : ∀ r : StoredDrep, (if p r then f r else r).drepId = r.drepId := fun r => by
    split_ifs with h
    · exact hkey r h
    · rfl
  have hsame : (fun r : StoredDrep => r.drepId == drepId) ∘ (fun r => if p r then f r else r) =
      fun r => r.drepId == drepId := funext fun r => by rw [Function.comp_apply, hkeeps r]
  rw [drepById, drepById, KeyedTable.updateWhere]
  unfold Table.updateWhere
  rw [List.find?_map, hsame]

end DrepTalk
