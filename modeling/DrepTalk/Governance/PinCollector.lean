import DrepTalk.Governance.PinMetadata
import DrepTalk.Library.Interleaving

/-!
# The pin collector

One run of `collectUnreferencedPins` (`src/lib/governance/pinCollector.ts`), statement by statement.
A run selects its candidates in one statement and claims each of them in another one, by its hash
alone; what follows the answer of the pinning service is by the hash alone too.

Which documents have been handed out, and when, is kept beside the tables; and so are the calls of
`removeFile`, and what a claim was made on. No statement reads them.
-/

namespace DrepTalk

def PIN_GRACE_SECONDS : ℤ := 7 * 24 * 60 * 60

/-- A claim older than this was left by a run that died. -/
def PIN_STALE_CLAIM_SECONDS : ℤ := 60 * 60

structure Served where
  hash : String
  servedAt : ℤ
  deriving DecidableEq

/-- `RemoveOutcome`, or the call throws. -/
inductive RemoveOutcome
  | removed
  | already_gone
  | not_ours
  | throws
  deriving DecidableEq

/-- The tables and the clock; what has been handed out; and the calls of `removeFile`, each with the
file id and the answer. -/
structure PinWorld where
  pins : PinTable
  actions : List MirroredAction
  clock : ℤ
  served : List Served
  removals : List (Option String × RemoveOutcome)

structure PinRun where
  now : ℤ
  limit : ℕ
  deriving DecidableEq

structure CollectPinsResult where
  scanned : ℕ
  deleted : ℕ
  failed : ℕ
  foreign : ℕ
  elsewhere : ℕ
  backlog : ℕ
  deriving DecidableEq

/-- A run in its loop: what the other network anchors, the counts so far, and the candidates that
are left, as they were selected. -/
structure PinPass where
  run : PinRun
  anchoredElsewhere : List String
  counts : CollectPinsResult
  rest : List PinRow
  deriving DecidableEq

/-- What a claim was made on: the candidate, the row then, whether it was anchored then, and
when. -/
structure PinClaim where
  pin : PinRow
  row : PinRow
  anchored : Bool
  claimedAt : ℤ
  deriving DecidableEq

/-- What follows the answer of the pinning service. -/
inductive AfterRemove
  | drop
  | disown
  | release
  deriving DecidableEq

/-- Where a run stands: it has claimed a row and is about to ask for the removal of its file, or it
has an answer. -/
inductive PinProc
  | begin (run : PinRun)
  | selected (run : PinRun) (pins : List PinRow) (total : ℕ)
  | loop (pass : PinPass)
  | claimed (pass : PinPass) (claim : PinClaim)
  | answered (pass : PinPass) (claim : PinClaim) (next : AfterRemove)
  | done (result : CollectPinsResult)
  deriving DecidableEq

/-- What a step depends on: what the other network anchors, if it can be asked; what the pinning
service answers; whether a statement throws. -/
inductive PinInput
  | statement
  | elsewhere (hashes : Option (List String))
  | removal (outcome : RemoveOutcome)
  | throws

def RemoveOutcome.next : RemoveOutcome → AfterRemove
  | .removed | .already_gone => .drop
  | .not_ours => .disown
  | .throws => .release

/-- The terminal statement for a row, and the count that goes with it. -/
def AfterRemove.apply (next : AfterRemove) (pins : PinTable) (hash : String)
    (counts : CollectPinsResult) : PinTable × CollectPinsResult :=
  match next with
  | .drop => (deleteGovActionMetadata pins hash, { counts with deleted := counts.deleted + 1 })
  | .disown => (disownPin pins hash, counts)
  | .release => (releasePinDeleting pins hash, counts)

def collectStep (graceSeconds : ℤ) (input : PinInput) (w : PinWorld) :
    PinProc → Option (PinWorld × PinProc)
  | .begin run =>
    let pins := getCollectablePins w.pins w.actions (run.now - graceSeconds)
      (run.now - PIN_STALE_CLAIM_SECONDS) run.limit
    some (w, .selected run pins.1 pins.2)
  | .selected run pins total =>
    match input with
    | .elsewhere (some hashes) =>
      some (w, .loop ⟨run, hashes, ⟨pins.length, 0, 0, 0, 0, total⟩, pins⟩)
    | .elsewhere none => some (w, .done ⟨pins.length, 0, pins.length, 0, 0, total⟩)
    | _ => none
  | .loop pass =>
    match pass.rest with
    | [] =>
      let c := pass.counts
      some (w, .done { c with backlog := c.backlog - c.deleted - c.foreign - c.elsewhere })
    | pin :: rest =>
      if pass.anchoredElsewhere.contains pin.hash then
        some ({ w with pins := disownPin w.pins pin.hash },
          .loop { pass with
            counts := { pass.counts with elsewhere := pass.counts.elsewhere + 1 }
            rest := rest })
      else
        let cutoff := pass.run.now - PIN_STALE_CLAIM_SECONDS
        let mark := markPinDeleting w.pins pin.hash pass.run.now cutoff
        match mark.2, w.pins.rows.find? fun r => r.hash == pin.hash && r.isClaimable cutoff with
        | true, some row =>
          some ({ w with pins := mark.1 }, .claimed { pass with rest := rest }
            ⟨pin, row, isAnchored w.actions pin.hash, w.clock⟩)
        | _, _ => some (w, .loop { pass with rest := rest })
  | .claimed pass claim =>
    match input with
    | .removal outcome =>
      let counts := match outcome with
        | .not_ours => { pass.counts with foreign := pass.counts.foreign + 1 }
        | .throws => { pass.counts with failed := pass.counts.failed + 1 }
        | _ => pass.counts
      some ({ w with removals := (claim.pin.pinataFileId, outcome) :: w.removals },
        .answered { pass with counts := counts } claim outcome.next)
    | _ => none
  | .answered pass claim next =>
    match input, next with
    | .throws, .release => none
    | .throws, _ =>
      some (w, .answered
        { pass with counts := { pass.counts with failed := pass.counts.failed + 1 } } claim .release)
    | _, _ =>
      let applied := next.apply w.pins claim.pin.hash pass.counts
      some ({ w with pins := applied.1 }, .loop { pass with counts := applied.2 })
  | .done _ => none

end DrepTalk
