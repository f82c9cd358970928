import DrepTalk.Notifications.Fanout

/-!
# Dispatching notifications to a channel

`src/lib/notifications/dispatch.ts` and `src/lib/db/notificationChannels.ts`: a pass reads the
database clock, lists the channels that may have something new, and for each of them counts what
is pending between the channel's cursor and the pass's end, claims it by moving the cursor,
delivers it, and keeps the claim or hands it back.

Delivery itself is outside: it answers, or throws. So may any statement fail. The lookup of the
newest event, which only words the message, is taken as a number of queries, and the two test
seams of a pass are left out. Beside the variables of the source a process remembers the rows
its counts counted, the *bundle*.
-/

namespace DrepTalk

inductive ChannelKind
  | webpush
  | telegram
  deriving DecidableEq

inductive NotificationEventType
  | reply
  | mention
  | governance
  | drepActivity
  | drepStatus
  | myDelegation
  | drepStats
  | rationaleReady
  | governanceReview
  | delegationDigest
  deriving DecidableEq

def NOTIFICATION_EVENT_TYPES : List NotificationEventType :=
  [.reply, .mention, .governance, .drepActivity, .drepStatus, .myDelegation, .drepStats,
    .rationaleReady, .governanceReview, .delegationDigest]

/-- The pref a channel has for an event type it never stored a choice for. -/
def prefDefault (eventType : NotificationEventType) : Bool := eventType != .delegationDigest

/-- A row of `notification_channels`. -/
structure ChannelRow where
  id : String
  userId : String
  channel : ChannelKind
  target : String
  endpoint : String
  label : Option String
  createdAt : ℤ
  deliveredUntil : ℤ
  lastSentAt : Option ℤ
  dispatchAttemptedAt : ℤ
  deriving DecidableEq

/-- A row of `notification_prefs`. -/
structure PrefRow where
  userId : String
  channel : ChannelKind
  eventType : NotificationEventType
  enabled : Bool

/-- A row of `activity`, by the columns the governance term reads. -/
structure ActivityRow where
  type : String
  topicId : String
  notifiedAt : Option ℤ

abbrev ChannelTable := KeyedTable fun row : ChannelRow => row.id

abbrev PrefTable := KeyedTable fun p : PrefRow => (p.userId, p.channel, p.eventType)

/-- The tables a pass reads and writes, and the database clock in milliseconds. -/
structure DispatchDb where
  channels : ChannelTable
  prefs : PrefTable
  notifications : NotificationTable
  activity : List ActivityRow
  liveTopics : List String
  clock : ℤ

/-! ### Channels -/

/-- The arguments of `addChannel`. -/
structure AddChannelArgs where
  userId : String
  channel : ChannelKind
  target : String
  endpoint : String
  label : Option String

/-- The upsert of a channel: a device already connected gets the new target, another one a row
whose cursor starts at the clock. -/
def upsertChannel (channels : ChannelTable) (clock : ℤ) (id : String) (args : AddChannelArgs) :
    ChannelTable :=
  if channels.rows.any fun row => row.userId == args.userId && row.endpoint == args.endpoint then
    channels.updateWhere
      (fun row => row.userId == args.userId && row.endpoint == args.endpoint)
      (fun row => { row with target := args.target, label := args.label }) fun _ _ => rfl
  else channels.insertOrIgnore
    ⟨id, args.userId, args.channel, args.target, args.endpoint, args.label, clock, clock, none, 0⟩

/-- The default prefs of a channel kind, where none is stored. -/
def seedPrefs (prefs : PrefTable) (userId : String) (channel : ChannelKind) : PrefTable :=
  NOTIFICATION_EVENT_TYPES.foldl
    (fun prefs eventType =>
      prefs.insertOrIgnore ⟨userId, channel, eventType, prefDefault eventType⟩) prefs

def addChannel (db : DispatchDb) (id : String) (args : AddChannelArgs) : DispatchDb :=
  { db with
    channels := upsertChannel db.channels db.clock id args
    prefs := seedPrefs db.prefs args.userId args.channel }

/-- Whether a governance event is of a live topic. -/
def isLiveGov (db : DispatchDb) (a : ActivityRow) : Bool :=
  (a.type == "gov_created" || a.type == "gov_status") && db.liveTopics.contains a.topicId

/-- The newest live governance event of `readPassStart`. -/
def latestGovAt (db : DispatchDb) : Option ℤ :=
  ((db.activity.filter (isLiveGov db)).filterMap (·.notifiedAt)).max?

/-- The condition of the candidate query. -/
def isCandidate (db : DispatchDb) (kind : ChannelKind) (latestGovAt : Option ℤ)
    (row : ChannelRow) : Bool :=
  row.channel == kind &&
    ((match latestGovAt with
      | some govAt => decide (row.deliveredUntil < govAt)
      | none => false) ||
      db.notifications.rows.any fun n =>
        n.recipientId == row.userId && decide (row.deliveredUntil < n.createdAt))

/-- The order of the candidates: least recently attempted first. -/
def attemptedBefore (a b : ChannelRow) : Prop :=
  a.dispatchAttemptedAt < b.dispatchAttemptedAt ∨
    a.dispatchAttemptedAt = b.dispatchAttemptedAt ∧ a.id ≤ b.id

instance : DecidableRel attemptedBefore := fun _ _ => inferInstanceAs (Decidable (_ ∨ _))

/-- Channels of one kind that may have something to deliver. -/
def listDispatchCandidates (db : DispatchDb) (kind : ChannelKind) (latestGovAt : Option ℤ)
    (limit : ℕ) : List ChannelRow :=
  ((db.channels.rows.filter (isCandidate db kind latestGovAt)).insertionSort attemptedBefore).take
    limit

/-- The rows of a claim: one channel, while its cursor is the one expected. -/
def holdsCursor (id : String) (expected : ℤ) (row : ChannelRow) : Bool :=
  row.id == id && row.deliveredUntil == expected

/-- Moves a cursor that still is where the pass read it; the answer says whether it was. -/
def claimChannelCursor (channels : ChannelTable) (id : String)
    (expected deliveredUntil attemptedAt : ℤ) : ChannelTable × Bool :=
  (channels.updateWhere (holdsCursor id expected)
      (fun row => { row with deliveredUntil, dispatchAttemptedAt := attemptedAt }) fun _ _ => rfl,
    channels.rows.any (holdsCursor id expected))

/-- Restores a cursor that still is where the pass claimed it. -/
def handBackChannelCursor (channels : ChannelTable) (id : String) (claimedValue restoreTo : ℤ) :
    ChannelTable :=
  channels.updateWhere (holdsCursor id claimedValue)
    (fun row => { row with deliveredUntil := restoreTo }) fun _ _ => rfl

def markChannelSent (channels : ChannelTable) (id : String) (clock : ℤ) : ChannelTable :=
  channels.updateWhere (fun row => row.id == id) (fun row => { row with lastSentAt := some clock })
    fun _ _ => rfl

def deleteChannelById (channels : ChannelTable) (id : String) : ChannelTable :=
  channels.deleteWhere fun row => row.id == id

/-! ### Pending work -/

/-- The prefs of one user and channel kind. -/
abbrev Prefs := NotificationEventType → Bool

/-- The stored choices, or the defaults of their types. -/
def getPrefs (db : DispatchDb) (userId : String) (channel : ChannelKind) : Prefs :=
  fun eventType =>
    match db.prefs.rows.find? fun p =>
        p.userId == userId && p.channel == channel && p.eventType == eventType with
    | some p => p.enabled
    | none => prefDefault eventType

/-- The pref that gates a personal notification; a security notice has none. -/
def personalPref (type : String) : Option (Option NotificationEventType) :=
  if type = "reply" then some (some .reply)
  else if type = "mention" then some (some .mention)
  else if type = "device_paired" then some none
  else if type = "delegator_drep_voted" ∨ type = "delegator_drep_re_voted" then
    some (some .drepActivity)
  else if type = "delegator_drep_status_changed" then some (some .drepStatus)
  else if type = "delegation_changed" then some (some .myDelegation)
  else if type = "drep_stats" then some (some .drepStats)
  else if type = "delegation_digest" then some (some .delegationDigest)
  else if type = "rationale_ready" then some (some .rationaleReady)
  else if type = "review_published" then some (some .governanceReview)
  else none

/-- The interval of a pass on a channel. -/
def inPass (row : ChannelRow) (passEnd at' : ℤ) : Bool :=
  decide (row.deliveredUntil < at') && decide (at' ≤ passEnd)

/-- The personal rows in the interval that one term of the counts counts. -/
def countPersonal (db : DispatchDb) (row : ChannelRow) (passEnd : ℤ)
    (pref : Option NotificationEventType) : ℕ :=
  db.notifications.rows.countP fun n =>
    n.recipientId == row.userId && personalPref n.type == some pref && inPass row passEnd n.createdAt

/-- The live governance threads with an event in the interval. -/
def countGovThreads (db : DispatchDb) (row : ChannelRow) (passEnd : ℤ) : ℕ :=
  ((db.activity.filter fun a =>
    isLiveGov db a && a.notifiedAt.any (inPass row passEnd)).map (·.topicId)).dedup.length

/-- `PendingCounts`, by term. -/
structure PendingCounts where
  replies : ℕ
  mentions : ℕ
  governance : ℕ
  drepActivity : ℕ
  drepStatus : ℕ
  myDelegation : ℕ
  drepStats : ℕ
  delegationDigest : ℕ
  rationaleReady : ℕ
  reviews : ℕ
  devices : ℕ

def PendingCounts.total (c : PendingCounts) : ℕ :=
  c.replies + c.mentions + c.governance + c.drepActivity + c.drepStatus + c.myDelegation +
    c.drepStats + c.rationaleReady + c.reviews + c.delegationDigest + c.devices

/-- Undelivered work of a channel inside the interval, by prefs. -/
def getPendingCounts (db : DispatchDb) (row : ChannelRow) (prefs : Prefs) (passEnd : ℤ) :
    PendingCounts :=
  let gated (pref : NotificationEventType) : ℕ :=
    if prefs pref then countPersonal db row passEnd (some pref) else 0
  { replies := gated .reply
    mentions := gated .mention
    governance := if prefs .governance then countGovThreads db row passEnd else 0
    drepActivity := gated .drepActivity
    drepStatus := gated .drepStatus
    myDelegation := gated .myDelegation
    drepStats := gated .drepStats
    delegationDigest := gated .delegationDigest
    rationaleReady := gated .rationaleReady
    reviews := gated .governanceReview
    devices := countPersonal db row passEnd none }

/-- A personal notification the prefs let through. -/
def isEnabled (prefs : Prefs) (n : NotificationRow) : Bool :=
  match personalPref n.type with
  | some (some pref) => prefs pref
  | some none => true
  | none => false

def pendingBundle (db : DispatchDb) (row : ChannelRow) (prefs : Prefs) (passEnd : ℤ) :
    List NotificationRow :=
  db.notifications.rows.filter fun n =>
    n.recipientId == row.userId && isEnabled prefs n && inPass row passEnd n.createdAt

/-! ### A pass -/

def DISPATCH_QUERIES_PER_CHANNEL_MAX : ℕ := 14

def DISPATCH_FIXED_QUERIES : ℕ := 2

def DISPATCH_SCAN_CAP : ℕ := 500

def DETAIL_MAX : ℕ := 3

inductive DeliveryOutcome
  | sent
  | dead
  | failed
  deriving DecidableEq

structure DispatchResult where
  sent : ℕ
  pruned : ℕ
  skipped : ℕ
  deferred : Bool

structure DispatchPass where
  kind : ChannelKind
  budget : Allowance
  dbNow : ℤ
  prefsByUser : List (String × Prefs)
  sent : ℕ
  pruned : ℕ
  skipped : ℕ
  deferred : Bool

def DispatchPass.passEnd (pass : DispatchPass) : ℤ := pass.dbNow - 1

/-- Where the pass moves a cursor to: never backwards. -/
def DispatchPass.nextCursor (pass : DispatchPass) (row : ChannelRow) : ℤ :=
  max row.deliveredUntil pass.passEnd

def DispatchPass.result (pass : DispatchPass) : DispatchResult :=
  ⟨pass.sent, pass.pruned, pass.skipped, pass.deferred⟩

def DispatchPass.spend (pass : DispatchPass) (queries : ℕ) : DispatchPass :=
  { pass with budget := pass.budget.spend queries }

def candidateLimit (budget : Allowance) : ℕ :=
  match budget with
  | some remaining =>
    min DISPATCH_SCAN_CAP
      ((remaining - (DISPATCH_FIXED_QUERIES - 1 : ℕ)) / DISPATCH_QUERIES_PER_CHANNEL_MAX).toNat
  | none => DISPATCH_SCAN_CAP

structure Pending where
  row : ChannelRow
  counts : PendingCounts
  bundle : List NotificationRow

/-- A pass, by what it is about to do, with the channels it has still to visit; or its answer. -/
inductive DispatchProc
  | start (kind : ChannelKind) (budget : Allowance)
  | list (pass : DispatchPass) (latestGovAt : Option ℤ)
  | visit (pass : DispatchPass) (rows : List ChannelRow)
  | prefs (pass : DispatchPass) (row : ChannelRow) (rows : List ChannelRow)
  | counts (pass : DispatchPass) (row : ChannelRow) (prefs : Prefs) (rows : List ChannelRow)
  | mute (pass : DispatchPass) (row : ChannelRow) (rows : List ChannelRow)
  | lead (pass : DispatchPass) (pending : Pending) (rows : List ChannelRow)
  | claim (pass : DispatchPass) (pending : Pending) (rows : List ChannelRow)
  | deliver (pass : DispatchPass) (pending : Pending) (rows : List ChannelRow)
  | markSent (pass : DispatchPass) (row : ChannelRow) (rows : List ChannelRow)
  | prune (pass : DispatchPass) (row : ChannelRow) (rows : List ChannelRow)
  | handBack (pass : DispatchPass) (row : ChannelRow) (rows : List ChannelRow)
  | returned (result : DispatchResult)
  | threw

/-- How a step turns out: whether it fails, what delivery answers, and how many queries the
lookup or the delivery took. -/
structure StepOutcome where
  fails : Bool
  delivery : DeliveryOutcome
  queries : ℕ

/-- The start of a pass: not even the fixed queries may fit. -/
def dispatchStart (o : StepOutcome) (db : DispatchDb) (kind : ChannelKind) (budget : Allowance) :
    DispatchProc :=
  if !budget.covers DISPATCH_FIXED_QUERIES then .returned ⟨0, 0, 0, true⟩
  else if o.fails then .threw
  else .list ⟨kind, budget.spend 1, db.clock, [], 0, 0, 0, false⟩ (latestGovAt db)

/-- The candidate query, which a pass without room for a channel does not make. -/
def dispatchList (o : StepOutcome) (db : DispatchDb) (pass : DispatchPass)
    (latestGovAt : Option ℤ) : DispatchProc :=
  let limit := candidateLimit pass.budget
  if limit = 0 then .visit { pass with deferred := true } []
  else if o.fails then .threw
  else
    let rows := listDispatchCandidates db pass.kind latestGovAt limit
    .visit { pass.spend 1 with deferred := rows.length == limit } rows

/-- The head of the loop: every channel reserves its full worst case. -/
def dispatchVisit (pass : DispatchPass) : List ChannelRow → DispatchProc
  | [] => .returned pass.result
  | row :: rows =>
    if !pass.budget.covers DISPATCH_QUERIES_PER_CHANNEL_MAX then
      .returned { pass with deferred := true }.result
    else
      match pass.prefsByUser.lookup row.userId with
      | some prefs => .counts pass row prefs rows
      | none => .prefs pass row rows

/-- The counts of a channel: muted work is stepped over, a small bundle gets its lead. -/
def dispatchCounts (db : DispatchDb) (pass : DispatchPass) (row : ChannelRow) (prefs : Prefs)
    (rows : List ChannelRow) : DispatchProc :=
  let counts := getPendingCounts db row prefs pass.passEnd
  let pending : Pending := ⟨row, counts, pendingBundle db row prefs pass.passEnd⟩
  if counts.total = 0 then .mute pass row rows
  else if counts.total ≤ DETAIL_MAX then .lead pass pending rows
  else .claim pass pending rows

def claimFor (db : DispatchDb) (pass : DispatchPass) (row : ChannelRow) : ChannelTable × Bool :=
  claimChannelCursor db.channels row.id row.deliveredUntil (pass.nextCursor row) pass.dbNow

/-- The channels after a claim has been handed back. -/
def handBackFor (db : DispatchDb) (pass : DispatchPass) (row : ChannelRow) : ChannelTable :=
  handBackChannelCursor db.channels row.id (pass.nextCursor row) row.deliveredUntil

/-- What follows a delivery; a throw counts as a failure. -/
def dispatchDeliver (o : StepOutcome) (pass : DispatchPass) (row : ChannelRow)
    (rows : List ChannelRow) : DispatchProc :=
  if o.fails then .handBack pass row rows
  else
    match o.delivery with
    | .sent => .markSent { pass with sent := pass.sent + 1 } row rows
    | .dead => .prune pass row rows
    | .failed => .handBack pass row rows

/-- The next step of a pass. A failure before or after a claim only skips the channel; a
failure to hand a claim back ends the pass. -/
def dispatchStep (o : StepOutcome) (db : DispatchDb) :
    DispatchProc → Option (DispatchDb × DispatchProc)
  | .start kind budget => some (db, dispatchStart o db kind budget)
  | .list pass latestGovAt => some (db, dispatchList o db pass latestGovAt)
  | .visit pass rows => some (db, dispatchVisit pass rows)
  | .prefs pass row rows =>
    let pass := pass.spend 1
    if o.fails then some (db, .visit pass rows)
    else
      let prefs := getPrefs db row.userId row.channel
      some (db, .counts { pass with prefsByUser := (row.userId, prefs) :: pass.prefsByUser } row
        prefs rows)
  | .counts pass row prefs rows =>
    if o.fails then some (db, .visit (pass.spend 1) rows)
    else some (db, dispatchCounts db (pass.spend 1) row prefs rows)
  | .mute pass row rows =>
    if o.fails then some (db, .visit (pass.spend 1) rows)
    else some ({ db with channels := (claimFor db pass row).1 },
      .visit { pass.spend 1 with skipped := pass.skipped + 1 } rows)
  | .lead pass pending rows =>
    if o.fails then some (db, .visit (pass.spend o.queries) rows)
    else some (db, .claim (pass.spend o.queries) pending rows)
  | .claim pass pending rows =>
    if o.fails then some (db, .visit (pass.spend 1) rows)
    else if (claimFor db pass pending.row).2 then
      some ({ db with channels := (claimFor db pass pending.row).1 },
        .deliver (pass.spend 1) pending rows)
    else some (db, .visit { pass.spend 1 with skipped := pass.skipped + 1 } rows)
  | .deliver pass pending rows =>
    some (db, dispatchDeliver o (pass.spend o.queries) pending.row rows)
  | .markSent pass row rows =>
    if o.fails then some (db, .visit (pass.spend 1) rows)
    else some ({ db with channels := markChannelSent db.channels row.id db.clock },
      .visit (pass.spend 1) rows)
  | .prune pass row rows =>
    if o.fails then some (db, .visit (pass.spend 1) rows)
    else some ({ db with channels := deleteChannelById db.channels row.id },
      .visit { pass.spend 1 with pruned := pass.pruned + 1 } rows)
  | .handBack pass row rows =>
    if o.fails then some (db, .threw)
    else some ({ db with channels := handBackFor db pass row }, .visit (pass.spend 1) rows)
  | .returned _ | .threw => none

end DrepTalk
