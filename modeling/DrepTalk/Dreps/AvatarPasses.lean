import DrepTalk.Dreps.AvatarCollector
import DrepTalk.Dreps.AvatarRuns
import DrepTalk.Library.Interleaving

/-!
# What puts avatars and names them

The writers of the avatar bucket and of the rows that name its objects, statement by statement: the
avatar pass over the DReps (`storeDrepAvatars` of `src/lib/dreps/avatarStore.ts`), the logo pass
over the pools (`storePoolAvatars` of `src/lib/pools/avatarStore.ts`), and the sync of one DRep,
which stores an inline image before it upserts the row (`src/lib/dreps/sync.ts`).

**A put comes before the row.** A pass fetches an image, puts it, and names it in the row; only the
URL of an image that the site itself serves is adopted, where its object is there. The sync reads
the row long before it writes it, and writes back the hash that it has read, unless it has put an
inline image. What a process is about to name is what it `holds`, with the time of its put.

Less than the grace period passes between a put and the row: a later write is not a step. What an
image is fetched as comes from outside. The environment lets time pass, changes rows without naming
a new hash, and puts objects.
-/

namespace DrepTalk

/-! ### The URLs of the site -/

/-- A URL, by the parts that are read. -/
structure ImageUrl where
  protocol : String
  hostname : String
  pathname : String

inductive SelfHostedRef
  | drep_metadata (hash : String)
  | vote_rationale (hash : String)
  | avatar (hash : String)
  | other

/-- The host of `SITE_ORIGIN`. -/
def ZONE_HOST : String := "dreptalk.com"

/-- The text is 64 lower-case hexadecimal digits. -/
def isHex64 (text : List Char) : Bool :=
  text.length == 64 && text.all fun c => ('0' ≤ c && c ≤ '9') || ('a' ≤ c && c ≤ 'f')

/-- The hash of a path between two fixed texts. -/
def hashBetween (front back pathname : String) : Option String :=
  let hash := (pathname.toList.drop front.length).take 64
  if pathname.toList = front.toList ++ hash ++ back.toList ∧ isHex64 hash = true then
    some (String.ofList hash)
  else none

/-- What a URL of the site refers to; none for a foreign one. -/
def selfHostedRef (parseUrl : String → Option ImageUrl) (rawUrl : String) : Option SelfHostedRef :=
  (parseUrl rawUrl).bind fun url =>
    if url.protocol ≠ "https:" ∧ url.protocol ≠ "http:" then none
    else
      let host := url.hostname.toLower
      if host ≠ ZONE_HOST ∧ ¬('.' :: ZONE_HOST.toList) <:+ host.toList then none
      else
        ((hashBetween "/drep/" ".json" url.pathname).map .drep_metadata <|>
          (hashBetween "/vote-rationale/" ".json" url.pathname).map .vote_rationale <|>
          (hashBetween "/api/avatar/" "" url.pathname).map .avatar <|> some .other)

/-! ### The rows of the pools -/

/-- The default limit of the logo pass. -/
def POOL_PASS_LIMIT : ℕ := 100

def clearOrphanedPoolImageStore (pools : PoolTable) : PoolTable :=
  pools.updateWhere (fun r => r.imageUrl.isNone && r.imageContentHash.isSome)
    (fun r => { r with imageContentHash := none, imageStoredUrl := none }) fun _ _ => rfl

/-- The order of the queue: by the failures, then by id. -/
def logoBefore (a b : PoolRow) : Prop :=
  a.imageFetchAttempts < b.imageFetchAttempts ∨
    a.imageFetchAttempts = b.imageFetchAttempts ∧ a.poolId ≤ b.poolId

instance decidableLogoBefore : DecidableRel logoBefore := fun _ _ =>
  inferInstanceAs (Decidable (_ ∨ _))

def listPoolsNeedingAvatar (pools : PoolTable) : List PoolRow :=
  ((pools.rows.filter fun r => r.imageUrl.isSome && r.imageStoredUrl.isNone &&
    decide (r.imageFetchAttempts < AVATAR_FETCH_MAX_ATTEMPTS)).insertionSort logoBefore).take
      POOL_PASS_LIMIT

def setPoolImageStored (pools : PoolTable) (poolId hash imageUrl : String) : PoolTable :=
  pools.updateWhere (fun r => r.poolId == poolId && r.imageUrl == some imageUrl)
    (fun r =>
      { r with
        imageContentHash := some hash
        imageStoredUrl := some ("/api/avatar/" ++ hash)
        imageFetchFailedAt := none
        imageFetchAttempts := 0 })
    fun _ _ => rfl

def markPoolImageFetchFailed (pools : PoolTable) (poolIds : List String) (nowMs : ℤ) : PoolTable :=
  pools.updateWhere (fun r => poolIds.contains r.poolId)
    (fun r =>
      { r with
        imageFetchFailedAt := some nowMs
        imageFetchAttempts := r.imageFetchAttempts + 1 })
    fun _ _ => rfl

/-! ### The passes -/

inductive AvatarOwner
  | drep
  | pool
  deriving DecidableEq

structure AvatarSource where
  id : String
  imageUrl : String
  deriving DecidableEq

namespace BucketWorld

def clearOrphaned (w : BucketWorld) : AvatarOwner → BucketWorld
  | .drep => { w with dreps := clearOrphanedImageStore w.dreps }
  | .pool => { w with pools := clearOrphanedPoolImageStore w.pools }

def needingAvatar (w : BucketWorld) : AvatarOwner → List AvatarSource
  | .drep => (listDrepsNeedingAvatar w.dreps).filterMap fun r =>
    r.imageUrl.map fun imageUrl => ⟨r.drepId, imageUrl⟩
  | .pool => (listPoolsNeedingAvatar w.pools).filterMap fun r =>
    r.imageUrl.map fun imageUrl => ⟨r.poolId, imageUrl⟩

def setImageStored (w : BucketWorld) (row : AvatarSource) (hash : String) :
    AvatarOwner → BucketWorld
  | .drep => { w with dreps := setDrepImageStored w.dreps row.id hash row.imageUrl }
  | .pool => { w with pools := setPoolImageStored w.pools row.id hash row.imageUrl }

def markImageFetchFailed (w : BucketWorld) (failedIds : List String) (nowMs : ℤ) :
    AvatarOwner → BucketWorld
  | .drep => { w with dreps := markDrepImageFetchFailed w.dreps failedIds nowMs }
  | .pool => { w with pools := markPoolImageFetchFailed w.pools failedIds nowMs }

def putAvatar (w : BucketWorld) (hash : String) : BucketWorld :=
  { w with bucket := w.bucket.put (avatarKey hash) w.clockMs }

/-- Less than the grace period has passed since the put, if there was one. -/
def InTime (w : BucketWorld) (putAt : Option ℤ) : Prop :=
  ∀ time ∈ putAt, w.clockMs - time < AVATAR_GC_GRACE_MS

instance decidableInTime (w : BucketWorld) : (putAt : Option ℤ) → Decidable (w.InTime putAt)
  | none => isTrue nofun
  | some time => decidable_of_iff (w.clockMs - time < AVATAR_GC_GRACE_MS) (by simp [InTime])

end BucketWorld

/-- Where a pass stands: what is left to do, and the ids that have failed. -/
inductive StoreStage
  | clearing
  | listing
  | storing (todo : List AvatarSource) (failedIds : List String)
  | putting (row : AvatarSource) (hash : String) (todo : List AvatarSource)
      (failedIds : List String)
  | setting (row : AvatarSource) (hash : String) (putAt : Option ℤ) (todo : List AvatarSource)
      (failedIds : List String)
  | done
  deriving DecidableEq

structure StorePass where
  owner : AvatarOwner
  nowMs : ℤ
  stage : StoreStage

/-- What comes in from outside: the image that a URL is fetched as, by the hash of the bytes that
are stored for it, or that a statement throws. -/
inductive StoreEvent
  | proceeds
  | fetched (image : Option String)
  | throws
  deriving DecidableEq

/-- The hash whose object a row of the queue may adopt. -/
def adopted (parseUrl : String → Option ImageUrl) (owner : AvatarOwner) (row : AvatarSource) :
    Option String :=
  match owner, selfHostedRef parseUrl row.imageUrl with
  | .drep, some (.avatar hash) => some hash
  | _, _ => none

def storeRow (parseUrl : String → Option ImageUrl) (w : BucketWorld) (owner : AvatarOwner)
    (image : Option String) (row : AvatarSource) (todo : List AvatarSource)
    (failedIds : List String) : StoreStage :=
  if (selfHostedRef parseUrl row.imageUrl).isSome then
    match adopted parseUrl owner row with
    | some hash =>
      if w.bucket.Has (avatarKey hash) then .setting row hash none todo failedIds
      else .storing todo (failedIds ++ [row.id])
    | none => .storing todo (failedIds ++ [row.id])
  else
    match image with
    | some hash => .putting row hash todo failedIds
    | none => .storing todo (failedIds ++ [row.id])

def storeStep (parseUrl : String → Option ImageUrl) (event : StoreEvent) (w : BucketWorld)
    (p : StorePass) : Option (BucketWorld × StorePass) :=
  match p.stage, event with
  | .clearing, .proceeds => some (w.clearOrphaned p.owner, { p with stage := .listing })
  | .listing, .proceeds => some (w, { p with stage := .storing (w.needingAvatar p.owner) [] })
  | .storing [] failedIds, .proceeds =>
    some (w.markImageFetchFailed failedIds p.nowMs p.owner, { p with stage := .done })
  | .storing (row :: todo) failedIds, .fetched image =>
    some (w, { p with stage := storeRow parseUrl w p.owner image row todo failedIds })
  | .putting row hash todo failedIds, .proceeds =>
    some (w.putAvatar hash, { p with stage := .setting row hash (some w.clockMs) todo failedIds })
  | .setting row hash putAt todo failedIds, .proceeds =>
    if w.InTime putAt then
      some (w.setImageStored row hash p.owner, { p with stage := .storing todo failedIds })
    else none
  | .storing (row :: todo) failedIds, .throws
  | .putting row _ todo failedIds, .throws
  | .setting row _ _ todo failedIds, .throws =>
    some (w, { p with stage := .storing todo (failedIds ++ [row.id]) })
  | _, _ => none

/-! ### The sync of one DRep -/

section Sync

variable {δ : Type*} (setup : DrepSyncSetup δ)

/-- The inline image that the sync stores. -/
def DrepSyncSetup.ingests (input : DrepUpsert δ) (existing : Option StoredDrep) : Option String :=
  if existing.any (fun row => input.info.anchor.any fun anchor => row.holds anchor.2) then none
  else input.document.bind setup.inlineHash

/-- Where the sync of a DRep stands, with the row as it was read. -/
inductive AvatarSyncStage
  | reading
  | ingesting (existing : Option StoredDrep)
  | upserting (existing : Option StoredDrep) (putAt : Option ℤ)
  | done
  deriving DecidableEq

structure AvatarSync (δ : Type*) where
  input : DrepUpsert δ
  stage : AvatarSyncStage

def syncAvatarStep (event : StoreEvent) (w : BucketWorld) (p : AvatarSync δ) :
    Option (BucketWorld × AvatarSync δ) :=
  match p.stage, event with
  | .reading, .proceeds =>
    let existing := drepById w.dreps p.input.info.drepId
    some (w,
      { p with
        stage :=
          if (setup.ingests p.input existing).isSome then .ingesting existing
          else .upserting existing none })
  | .ingesting existing, .proceeds =>
    (setup.ingests p.input existing).map fun hash =>
      (w.putAvatar hash, { p with stage := .upserting existing (some w.clockMs) })
  | .ingesting _, .throws => some (w, { p with stage := .done })
  | .upserting existing putAt, .proceeds =>
    if w.InTime putAt then
      some ({ w with dreps := syncDrepRow setup w.dreps existing p.input },
        { p with stage := .done })
    else none
  | _, _ => none

end Sync

/-! ### All of them -/

section Program

variable {δ : Type*} (setup : DrepSyncSetup δ) (parseUrl : String → Option ImageUrl)

inductive AvatarProc (δ : Type*)
  | collecting (gc : AvatarGc)
  | storing (pass : StorePass)
  | syncing (sync : AvatarSync δ)

def avatarStep (event : StoreEvent) (w : BucketWorld) :
    AvatarProc δ → Option (BucketWorld × AvatarProc δ)
  | .collecting gc =>
    if event = .proceeds then some ((gcStep w gc).1, .collecting (gcStep w gc).2) else none
  | .storing pass => (storeStep parseUrl event w pass).map fun out => (out.1, .storing out.2)
  | .syncing sync => (syncAvatarStep setup event w sync).map fun out => (out.1, .syncing out.2)

def AvatarProc.Starts (w : BucketWorld) : AvatarProc δ → Prop
  | .collecting gc => gc = .starting
  | .storing pass => pass.nowMs = w.clockMs ∧ pass.stage = .clearing
  | .syncing sync => sync.stage = .reading

structure AvatarEnv (w w' : BucketWorld) : Prop where
  clock : w.clockMs ≤ w'.clockMs
  dreps : ∀ hash ∈ listReferencedImageHashes w'.dreps, hash ∈ listReferencedImageHashes w.dreps
  pools : ∀ hash ∈ listReferencedPoolImageHashes w'.pools,
    hash ∈ listReferencedPoolImageHashes w.pools
  bucket : w.bucket.Renews w'.bucket

/-- The processes on the rows and the bucket. -/
def avatarProgram : Program BucketWorld (AvatarProc δ) where
  Start w p := p.Starts w
  Step w p w' p' := ∃ event, avatarStep setup parseUrl event w p = some (w', p')
  Env := AvatarEnv

/-- Every hash that a row names has its object. -/
def BucketWorld.Complete (w : BucketWorld) : Prop :=
  ∀ hash, w.References hash → w.bucket.Has (avatarKey hash)

/-- What a process is about to name, with the time of its put. -/
def AvatarProc.holds : AvatarProc δ → Option (String × Option ℤ)
  | .storing ⟨_, _, .setting _ hash putAt _ _⟩ => some (hash, putAt)
  | .syncing ⟨input, .upserting existing putAt⟩ =>
    (setup.row input.run input.info existing input.canFetch).imageContentHash.map (·, putAt)
  | _ => none

/-- The image that a process is about to put. -/
def AvatarProc.puts : AvatarProc δ → Option String
  | .storing ⟨_, _, .putting _ hash _ _⟩ => some hash
  | .syncing ⟨input, .ingesting existing⟩ => setup.ingests input existing
  | _ => none

/-- The image that a process is about to adopt, if it is there. -/
def AvatarProc.adopts : AvatarProc δ → Option String
  | .storing ⟨owner, _, .storing (row :: _) _⟩ => adopted parseUrl owner row
  | _ => none

end Program

end DrepTalk
