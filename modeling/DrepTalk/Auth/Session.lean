import DrepTalk.Library.ExpiringStore
import Mathlib.Data.List.Sort

/-!
# Sessions in the key-value store

`src/lib/auth/session.ts`: a session record under the hash of its token, and one index per user
that lists the hashes. Both kinds of keys live in one store and expire on their own.

The hash function is a parameter, and so is the token that `createSession` draws at random.
`JSON.stringify` and `JSON.parse` are taken together: the store holds records and lists of
hashes, under keys that cannot be confused (`sessKey_ne_usessKey`). Every call reads the clock
once, in whole seconds. The callbacks that record activity or slide a cookie run after the store
has been written and cannot reach it; `getSession` returns whether they are fired.
-/

namespace DrepTalk

/-- `SESSION_TTL_SEC`: 30 days. -/
def SESSION_TTL_SEC : ℤ := 2592000

/-- `SESSION_ABSOLUTE_TTL_SEC`: 90 days. -/
def SESSION_ABSOLUTE_TTL_SEC : ℤ := 7776000

/-- `SLIDING_WINDOW_SEC`: 6 hours. -/
def SLIDING_WINDOW_SEC : ℤ := 21600

/-- `actsFor` of a session minted when grants were pinned on sessions. -/
structure ActsFor where
  userId : String
  stakeAddr : String
  deriving DecidableEq

/-- `SessionRecord`. The outer option of `drepId` tells a record without the field. -/
structure SessionRecord where
  userId : String
  roles : List String
  drepId : Option (Option String)
  grantId : Option String
  actsFor : Option ActsFor
  label : Option String
  createdAt : ℤ
  lifetimeStart : Option ℤ
  lastSeen : ℤ
  deriving DecidableEq

/-- Start of a session's absolute lifetime. -/
def sessionLifetimeStart (record : SessionRecord) : ℤ :=
  record.lifetimeStart.getD record.createdAt

/-- The moment a session reaches its absolute cap. -/
def lifetimeEndsAt (record : SessionRecord) : ℤ :=
  sessionLifetimeStart record + SESSION_ABSOLUTE_TTL_SEC

/-- `SessionSummary`: one row of the device list. -/
structure SessionSummary where
  id : String
  label : Option String
  createdAt : ℤ
  lastSeen : ℤ

inductive KvValue
  | session (record : SessionRecord)
  | hashes (list : List String)
  deriving DecidableEq

/-- The `SESSIONS` namespace. -/
abbrev SessionStore := ExpiringStore String KvValue

/-- `KVNamespace.put` with an `expirationTtl`, at the given time. -/
def SessionStore.putFor (kv : SessionStore) (now : ℤ) (key : String) (value : KvValue) (ttl : ℤ) :
    SessionStore :=
  kv.put key value (now + ttl)

def sessKey (keyHash : String) : String := "sess:" ++ keyHash

def usessKey (userId : String) : String := "usess:" ++ userId

/-- `kv.get` and `JSON.parse` of a session record. -/
def readRecord (kv : SessionStore) (now : ℤ) (keyHash : String) : Option SessionRecord :=
  match kv.get now (sessKey keyHash) with
  | some (.session record) => some record
  | _ => none

/-- Reads an index by its full key: the empty list if the key is absent. -/
def readHashIndexByKey (kv : SessionStore) (now : ℤ) (key : String) : List String :=
  match kv.get now key with
  | some (.hashes hashes) => hashes
  | _ => []

def readHashIndex (kv : SessionStore) (now : ℤ) (userId : String) : List String :=
  readHashIndexByKey kv now (usessKey userId)

/-- Removes a hash from an index: writes the pruned list, or deletes the key if nothing is left. -/
def pruneHashFromIndex (kv : SessionStore) (now : ℤ) (key hash : String) : SessionStore :=
  let pruned := (readHashIndexByKey kv now key).filter fun h => h != hash
  if pruned.length > 0 then kv.putFor now key (.hashes pruned) SESSION_TTL_SEC
  else kv.delete key

/-- The idle window, shortened when the absolute cap would be reached first. -/
def renewalTtl (record : SessionRecord) (now : ℤ) : ℤ :=
  let untilCap := lifetimeEndsAt record - now
  max 60 (min SESSION_TTL_SEC untilCap)

/-- The user a session is created for. -/
structure SessionUser where
  id : String
  roles : List String
  drepId : Option String
  deriving DecidableEq

/-- The record `createSession` writes. -/
def newRecord (now : ℤ) (user : SessionUser) (lifetimeStart : Option ℤ) (label : Option String) :
    SessionRecord where
  userId := user.id
  roles := user.roles
  drepId := some user.drepId
  grantId := none
  actsFor := none
  label := label
  createdAt := now
  lifetimeStart := lifetimeStart.map fun start => min start now
  lastSeen := now

section Calls

variable (sha256hex : String → String)

/-- Creates a session; `token` is the bearer token drawn at random, which is also the answer. -/
def createSession (kv : SessionStore) (now : ℤ) (token : String) (user : SessionUser)
    (lifetimeStart : Option ℤ) (label : Option String) : SessionStore :=
  let keyHash := sha256hex token
  let record := newRecord now user lifetimeStart label
  let hashes := readHashIndex kv now user.id
  (kv.putFor now (sessKey keyHash) (.session record) (renewalTtl record now)).putFor now
    (usessKey user.id) (.hashes (hashes ++ [keyHash])) SESSION_TTL_SEC

/-- Deletes one record by its key hash and prunes it from its user's index. -/
def deleteSessionByHash (kv : SessionStore) (now : ℤ) (keyHash : String) : SessionStore :=
  match readRecord kv now keyHash with
  | some record =>
    pruneHashFromIndex (kv.delete (sessKey keyHash)) now (usessKey record.userId) keyHash
  | none => kv.delete (sessKey keyHash)

/-- The sliding renewal: the record and, if it is there, the index are written anew, both with
the record's TTL. -/
def renewSession (kv : SessionStore) (now : ℤ) (keyHash : String) (record : SessionRecord) :
    SessionStore :=
  let ttl := renewalTtl record now
  let kv' := kv.putFor now (sessKey keyHash) (.session { record with lastSeen := now }) ttl
  match kv.get now (usessKey record.userId) with
  | some indexRaw => kv'.putFor now (usessKey record.userId) indexRaw ttl
  | none => kv'

/-- Retrieves a record by its token. A record past its absolute cap is deleted; one not renewed
for the sliding window is renewed, and the last component says that it was. -/
def getSession (kv : SessionStore) (now : ℤ) (token : String) :
    SessionStore × Option SessionRecord × Bool :=
  let keyHash := sha256hex token
  match readRecord kv now keyHash with
  | none => (kv, none, false)
  | some record =>
    if now > lifetimeEndsAt record then (deleteSessionByHash kv now keyHash, none, false)
    else if now - record.lastSeen > SLIDING_WINDOW_SEC then
      (renewSession kv now keyHash record, some { record with lastSeen := now }, true)
    else (kv, some record, false)

/-- Revokes a single session by its token. -/
def revokeSession (kv : SessionStore) (now : ℤ) (token : String) : SessionStore :=
  deleteSessionByHash kv now (sha256hex token)

end Calls

/-- The loop of `listSessionsForUser` over the hashes: a hash without a record is pruned from
the index, a session past its cap is hidden. -/
def listHashes (now : ℤ) (userId : String) :
    List String → SessionStore → SessionStore × List SessionSummary
  | [], kv => (kv, [])
  | hash :: hashes, kv =>
    match readRecord kv now hash with
    | none => listHashes now userId hashes (pruneHashFromIndex kv now (usessKey userId) hash)
    | some record =>
      let rest := listHashes now userId hashes kv
      if now > lifetimeEndsAt record then rest
      else (rest.1, ⟨hash, record.label, record.createdAt, record.lastSeen⟩ :: rest.2)

/-- The user's live sessions, newest activity first. -/
def listSessionsForUser (kv : SessionStore) (now : ℤ) (userId : String) :
    SessionStore × List SessionSummary :=
  let listed := listHashes now userId (readHashIndex kv now userId) kv
  (listed.1, listed.2.insertionSort fun a b => b.lastSeen ≤ a.lastSeen)

/-- `/^[0-9a-f]{64}$/`. -/
def isSessionId (sessionId : String) : Bool :=
  sessionId.toList.length == 64 &&
    sessionId.toList.all fun c => ('0' ≤ c && c ≤ '9') || ('a' ≤ c && c ≤ 'f')

/-- Revokes one of the user's own sessions by its id. -/
def revokeSessionForUser (kv : SessionStore) (now : ℤ) (userId sessionId : String) :
    SessionStore × Bool :=
  if !isSessionId sessionId then (kv, false)
  else
    match readRecord kv now sessionId with
    | none => (kv, false)
    | some record =>
      if record.userId ≠ userId then (kv, false)
      else (deleteSessionByHash kv now sessionId, true)

/-- Revokes all sessions of a user: every listed record is deleted blind, then the index. -/
def revokeAllForUser (kv : SessionStore) (now : ℤ) (userId : String) : SessionStore :=
  match kv.get now (usessKey userId) with
  | some (.hashes hashes) =>
    (hashes.foldl (fun kv h => kv.delete (sessKey h)) kv).delete (usessKey userId)
  | _ => kv

end DrepTalk
