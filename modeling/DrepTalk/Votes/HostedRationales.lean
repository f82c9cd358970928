import DrepTalk.Votes.VoteProcs
import Mathlib.Data.List.Infix

/-!
# Hosted rationale documents

`src/lib/db/voteRationale.ts`, with the hosting handler of `voteRationaleHandler.ts`: a document is
stored under its hash, and its URL is handed to a wallet, which may put it on the chain as the
anchor of a vote. A collector deletes documents that are older than a grace period and that no vote
anchors. It takes its candidates first, then reads the anchors of the current votes and of the
superseded ones, and deletes what is left.

Times are in seconds. A hash is 64 hexadecimal digits in lower case, and no letter outside ASCII
becomes one of these in lower case.
-/

namespace DrepTalk

/-- A row of `vote_rationale`. -/
structure RationaleDoc where
  hash : String
  body : String
  drepId : String
  gaId : String
  createdAt : ℤ
  deriving DecidableEq

/-- A hexadecimal digit in lower case. -/
def isHashDigit (c : Char) : Bool := ('0' ≤ c && c ≤ '9') || ('a' ≤ c && c ≤ 'f')

/-- The hash of a document: what `bytesToHex` makes of 32 bytes. -/
def IsDocHash (hash : String) : Prop :=
  hash.toList.length = 64 ∧ ∀ c ∈ hash.toList, isHashDigit c = true

instance decidableIsDocHash (hash : String) : Decidable (IsDocHash hash) :=
  inferInstanceAs (Decidable (_ ∧ _))

abbrev RationaleDocTable := KeyedTable fun doc : RationaleDoc => doc.hash

structure HostingDb where
  voteDb : VoteDb
  docs : RationaleDocTable

/-- `putVoteRationale`: a document that is there keeps its row, and its age. -/
def putVoteRationale (docs : RationaleDocTable) (doc : RationaleDoc) : RationaleDocTable :=
  docs.insertOrIgnore doc

/-! ### Anchors -/

/-- The path of a hosted document, up to its hash. -/
def HOSTED_PATH : List Char := "/vote-rationale/".toList

/-- The URL that a hosting request returns. -/
def hostedUrl (origin hash : String) : String := origin ++ "/vote-rationale/" ++ hash ++ ".json"

/-- `HOSTED_URL_HASH_RE` on a URL: the hash, as it is spelled there. The pattern has a fixed length
and ends where the URL ends. -/
def hostedUrlHash (url : List Char) : Option (List Char) :=
  let tail := url.drop (url.length - 85)
  let hash := (tail.drop 16).take 64
  if (tail.take 16).map Char.toLower = HOSTED_PATH ∧ hash.length = 64 ∧
      (hash.all fun c => isHashDigit c.toLower) = true ∧
      (tail.drop 80).map Char.toLower = ".json".toList then some hash
  else none

/-- The columns of a vote that may anchor a document. -/
structure AnchorColumns where
  metaHash : Option String
  metaUrl : Option String

def VoteRow.anchor (row : VoteRow) : AnchorColumns := ⟨row.metaHash, row.metaUrl⟩

def HistoryRow.anchor (row : HistoryRow) : AnchorColumns := ⟨row.metaHash, row.metaUrl⟩

def VoteInput.anchor (v : VoteInput) : AnchorColumns := ⟨v.metaHash, v.metaUrl⟩

/-- The columns anchor a document: by its hash, or by the URL it is hosted under, on any origin. -/
def AnchorColumns.Anchors (a : AnchorColumns) (hash : String) : Prop :=
  a.metaHash = some hash ∨ ∃ url ∈ a.metaUrl, ∃ origin : List Char,
    url.toList = origin ++ HOSTED_PATH ++ hash.toList ++ ".json".toList

theorem toList_hostedUrl (origin hash : String) : (hostedUrl origin hash).toList =
    origin.toList ++ HOSTED_PATH ++ hash.toList ++ ".json".toList := by
  rw [hostedUrl, String.toList_append, String.toList_append, String.toList_append]
  rfl

theorem anchors_hostedUrl (metaHash : Option String) (origin hash : String) :
    (AnchorColumns.mk metaHash (some (hostedUrl origin hash))).Anchors hash :=
  .inr ⟨_, Option.mem_some_self _, _, toList_hostedUrl origin hash⟩

/-- The condition of the queries for anchors. -/
def selectsAnchor (docs : RationaleDocTable) (a : AnchorColumns) : Bool :=
  (a.metaHash.any fun hash => docs.rows.any fun doc => doc.hash == hash) ||
    a.metaUrl.any fun url => decide (HOSTED_PATH <:+: url.toList)

/-- What the collector takes from the rows of one query. -/
def anchoredHashes (docs : RationaleDocTable) (anchors : List AnchorColumns) :
    List (List Char) :=
  (anchors.filter (selectsAnchor docs)).flatMap fun a =>
    ((a.metaHash.filter (· ≠ "")).map fun hash => hash.toList.map Char.toLower).toList ++
      ((a.metaUrl.bind fun url => hostedUrlHash url.toList).map (·.map Char.toLower)).toList

/-! ### The collector -/

/-- What `gcVoteRationale` returns. -/
structure GcResult where
  scanned : ℕ
  deleted : ℕ
  deriving DecidableEq

/-- A run of the collector, by the statement it is about to issue. -/
inductive RationaleGcProc
  | candidates (olderThanSec : ℤ)
  | current (candidates : List String)
  | history (candidates : List String) (anchored : List (List Char))
  | delete (chunks : List (List String)) (result : GcResult)
  | returned (result : GcResult)
  deriving DecidableEq

/-- The candidates that nothing anchors. -/
def doomed (candidates : List String) (anchored : List (List Char)) : List String :=
  candidates.filter fun hash => !anchored.contains (hash.toList.map Char.toLower)

/-- The next statement of `gcVoteRationale`. -/
def rationaleGcStep (db : HostingDb) : RationaleGcProc → Option (HostingDb × RationaleGcProc)
  | .candidates olderThanSec =>
    let candidates :=
      (db.docs.rows.filter fun doc => decide (doc.createdAt < olderThanSec)).map (·.hash)
    some (db, if candidates.length = 0 then .returned ⟨0, 0⟩ else .current candidates)
  | .current candidates =>
    some (db, .history candidates (anchoredHashes db.docs (db.voteDb.votes.rows.map (·.anchor))))
  | .history candidates anchored =>
    let ids := doomed candidates
      (anchored ++ anchoredHashes db.docs (db.voteDb.history.rows.map (·.anchor)))
    let result := ⟨candidates.length, ids.length⟩
    some (db, if ids = [] then .returned result else .delete (slices D1_MAX_BINDS ids) result)
  | .delete (ids :: chunks) result =>
    some ({ db with docs := db.docs.deleteWhere fun doc => ids.contains doc.hash },
      if chunks = [] then .returned result else .delete chunks result)
  | .delete [] result => some (db, .returned result)
  | .returned _ => none

/-! ### What the collector sees -/

section Sees

variable {docs : RationaleDocTable} {hash : String}

theorem toLower_of_isHashDigit {c : Char} (h : isHashDigit c = true) : c.toLower = c := by
  have hnot : ¬(c.val ≥ 'A'.val ∧ c.val ≤ 'Z'.val) := by
    rintro ⟨hle, hge⟩
    rw [isHashDigit, Bool.or_eq_true, Bool.and_eq_true, Bool.and_eq_true, decide_eq_true_eq,
      decide_eq_true_eq, decide_eq_true_eq, decide_eq_true_eq] at h
    rcases h with ⟨-, hdigit⟩ | ⟨hletter, -⟩
    · exact absurd (UInt32.le_trans hle hdigit) (by decide)
    · exact absurd (UInt32.le_trans hletter hge) (by decide)
  delta Char.toLower
  exact dif_neg hnot

theorem IsDocHash.map_toLower (h : IsDocHash hash) :
    hash.toList.map Char.toLower = hash.toList :=
  (List.map_congr_left fun c hc => toLower_of_isHashDigit (h.2 c hc)).trans (List.map_id _)

theorem hostedUrlHash_hosted (h : IsDocHash hash) (origin : List Char) :
    hostedUrlHash (origin ++ HOSTED_PATH ++ hash.toList ++ ".json".toList) = some hash.toList := by
  have hpath : HOSTED_PATH.length = 16 := by decide
  have htail : (origin ++ HOSTED_PATH ++ hash.toList ++ ".json".toList).drop
      ((origin ++ HOSTED_PATH ++ hash.toList ++ ".json".toList).length - 85) =
        HOSTED_PATH ++ (hash.toList ++ ".json".toList) := by
    have hlength : (origin ++ HOSTED_PATH ++ hash.toList ++ ".json".toList).length - 85 =
        origin.length := by
      simp only [List.length_append, hpath, h.1]
      have hjson : ".json".toList.length = 5 := by decide
      omega
    rw [hlength, List.append_assoc, List.append_assoc, List.drop_left]
  have hrest : (HOSTED_PATH ++ (hash.toList ++ ".json".toList)).drop 16 =
      hash.toList ++ ".json".toList := by rw [← hpath, List.drop_left]
  have hhash : (hash.toList ++ ".json".toList).take 64 = hash.toList := by
    rw [← h.1, List.take_left]
  have hend : (HOSTED_PATH ++ (hash.toList ++ ".json".toList)).drop 80 = ".json".toList := by
    rw [show 80 = 16 + 64 from rfl, ← List.drop_drop, hrest, ← h.1, List.drop_left]
  rw [hostedUrlHash, htail, hrest, hhash, hend, if_pos]
  refine ⟨?_, h.1, List.all_eq_true.mpr fun c hc => ?_, by decide⟩
  · rw [← hpath, List.take_left]
    decide
  · rw [toLower_of_isHashDigit (h.2 c hc)]
    exact h.2 c hc

/-- **The collector sees every anchor** of a document that is there. -/
theorem mem_anchoredHashes (h : IsDocHash hash) {doc : RationaleDoc} (hdoc : doc ∈ docs.rows)
    (hkey : doc.hash = hash) {anchors : List AnchorColumns} {a : AnchorColumns}
    (hmem : a ∈ anchors) (ha : a.Anchors hash) : hash.toList ∈ anchoredHashes docs anchors := by
  rw [anchoredHashes, List.mem_flatMap]
  have hlower := h.map_toLower
  rcases ha with hmeta | ⟨url, hurl, origin, horigin⟩
  · refine ⟨a, List.mem_filter.mpr ⟨hmem, ?_⟩, List.mem_append_left _ ?_⟩
    · rw [selectsAnchor, hmeta, Option.any_some, Bool.or_eq_true]
      exact .inl (List.any_eq_true.mpr ⟨doc, hdoc, beq_iff_eq.mpr hkey⟩)
    · have hne : hash ≠ "" := by
        rintro rfl
        exact absurd h.1 (by decide)
      rw [hmeta, Option.filter_some, if_pos (by simpa using hne), Option.map_some, hlower]
      exact List.mem_singleton_self _
  · rw [Option.mem_def] at hurl
    refine ⟨a, List.mem_filter.mpr ⟨hmem, ?_⟩, List.mem_append_right _ ?_⟩
    · rw [selectsAnchor, hurl, Option.any_some, Bool.or_eq_true, decide_eq_true_eq]
      refine .inr ⟨origin, hash.toList ++ ".json".toList, ?_⟩
      rw [horigin, List.append_assoc _ hash.toList]
    · rw [hurl, Option.bind_some, horigin, hostedUrlHash_hosted h, Option.map_some, hlower]
      exact List.mem_singleton_self _

theorem mem_doomed {candidates : List String} {anchored : List (List Char)} :
    hash ∈ doomed candidates anchored ↔
      hash ∈ candidates ∧ hash.toList.map Char.toLower ∉ anchored := by
  rw [doomed, List.mem_filter, Bool.not_eq_true', List.contains_eq_mem, decide_eq_false_iff_not]

end Sees

end DrepTalk
