import DrepTalk.Cardano.NativeScript
import DrepTalk.Governance.FormDraft
import DrepTalk.Library.Interleaving

/-!
# The guard of the group

`src/lib/notifications/telegramGroupGuard.ts` watches accounts that have just joined: a suspicious
message of theirs is deleted, and one strike too many leads to a ban. A call of `handleGroupUpdate`
judges its update and runs at most two statements on `telegram_group_watch`; any number of calls
run at once, statement by statement.

**What a watch is for** is said by a history that the code does not keep (`Since`): what has been
handled after an account's latest join, and whether a ban has succeeded since. The table is to show
it for as long as the watch is on (`GuardRight`).

**One gap.** A release and the cleanup after a ban delete the row in a later statement, by account
alone, and so take the fresh watch of an account that has rejoined in between. Runs in which no
account rejoins at that moment are right (`guardRight`).
-/

namespace DrepTalk

/-! ### Judging a message -/

/-- A pattern is what `RegExp.test` says of a text. -/
structure GroupGuardConfig where
  watchHours : ℚ
  cleanMessages : ℚ
  strikesToBan : ℚ
  patterns : List (String → Bool)

def GROUP_GUARD_DEFAULTS : GroupGuardConfig := ⟨24, 3, 2, []⟩

structure GroupGuardTarget where
  chatId : String
  botUsername : String
  cfg : GroupGuardConfig

/-- The target, and how the language writes a number and folds a text to lower case. -/
structure GuardEnv extends GroupGuardTarget where
  numberText : ℚ → String
  lc : Cardano.LowerCase

def LINK_ENTITY_TYPES : List String := ["url", "text_link", "mention", "text_mention"]

/-- Looks for a link in a text in lower case; `\b` asks that no word character comes before. -/
def rawLinkFrom : Bool → Text → Bool
  | _, [] => false
  | inWord, c :: t =>
    ["http://", "https://", "www."].any (fun s => s.toList.isPrefixOf (c :: t)) ||
      (!inWord && ["t.me/", "telegram.me/"].any fun s => s.toList.isPrefixOf (c :: t)) ||
      rawLinkFrom (c.isAlphanum || c == '_') t

/-- `RAW_LINK.test(text)`: without the `u` flag, `i` folds ASCII letters only to each other. -/
def RAW_LINK (text : Text) : Bool := rawLinkFrom false (text.map Char.toLower)

/-- A text without its first UTF-16 code units, unless they end within a character. -/
def dropUnits : ℕ → Text → Option Text
  | 0, t => some t
  | _, [] => some []
  | n + 1, c :: t => if utf16Length [c] ≤ n + 1 then dropUnits (n + 1 - utf16Length [c]) t else none

/-- The first UTF-16 code units of a text, unless they end within a character. -/
def takeUnits : ℕ → Text → Option Text
  | 0, _ => some []
  | _, [] => some []
  | n + 1, c :: t =>
    if utf16Length [c] ≤ n + 1 then (takeUnits (n + 1 - utf16Length [c]) t).map (c :: ·) else none

/-- Where an argument of `slice` points: truncated, and counted from the end if negative. -/
def sliceIndex (len : ℕ) (q : ℚ) : ℕ :=
  let k := if 0 ≤ q then q.floor else q.ceil
  if 0 ≤ k then min k.toNat len else (len + k).toNat

/-- `text.slice(start, stop)`, unless it cuts a character in two. -/
def sliceUnits (text : Text) (start stop : ℚ) : Option Text :=
  let i := sliceIndex (utf16Length text) start
  (dropUnits i text).bind (takeUnits (sliceIndex (utf16Length text) stop - i))

/-- Whether an entity is a link or a mention of someone else; reading a field of `null` throws. -/
def entityLinks (env : GuardEnv) (text : String) (e : JsonValue) : Option Bool :=
  match e, e.field "type" with
  | .null, _ => none
  | _, some (.string type) =>
    if type ∉ LINK_ENTITY_TYPES then some false
    else
      match e.field "offset", e.field "length" with
      | some (.number offset), some (.number length) =>
        let self := env.lc.toLowerCase ("@" ++ env.botUsername).toList
        let named := (sliceUnits text.toList offset (offset + length)).map env.lc.toLowerCase
        some !(type == "mention" && named == some self)
      | _, _ => some true
  | _, _ => some false

/-- One part of a message: its text and the entities in it. -/
def partSuspicious (env : GuardEnv) (message : JsonValue) (keys : String × String) : Option Bool :=
  let text := match message.field keys.1 with
    | some (.string s) => s
    | _ => ""
  let entities := match message.field keys.2 with
    | some (.array items) => items
    | _ => []
  (entities.anyM (entityLinks env text)).map fun links =>
    links || (text != "" && (RAW_LINK text.toList || env.cfg.patterns.any (· text)))

/-- `none` where the code throws. -/
def isSuspiciousMessage (env : GuardEnv) (message : JsonValue) : Option Bool :=
  if (["forward_origin", "forward_from", "forward_from_chat"].any fun key =>
      (message.field key).isSome) then some true
  else
    match message.field "reply_markup" with
    | some (.object _) | some (.array _) => some true
    | _ => [("text", "entities"), ("caption", "caption_entities")].anyM (partSuspicious env message)

/-- The update's message in the group, and whether it is an edit. -/
def messageInChat (env : GuardEnv) (update : JsonValue) : Option (JsonValue × Bool) :=
  let edited := (update.field "message").isNone
  (if edited then update.field "edited_message" else update.field "message").bind fun message =>
    match (message.field "chat").bind (·.field "id") with
    | some (.number id) => if env.numberText id = env.chatId then some (message, edited) else none
    | some (.string id) => if id = env.chatId then some (message, edited) else none
    | _ => none

/-! ### A call -/

/-- A suspicious message, and the number of strikes with it. -/
structure Strike where
  user : ℚ
  messageId : ℚ
  count : ℕ
  deriving DecidableEq

inductive GroupGuardOutcome
  | joined
  | clean
  | deleted
  | banned
  | ignored
  deriving DecidableEq

/-- Where a call stands: before a statement, before it turns to Telegram, or awaiting a ban. -/
inductive GuardPoint
  | join (members : List ℚ) (time : ℚ)
  | clean (user time : ℚ)
  | release (user : ℚ)
  | suspicious (user messageId time : ℚ)
  | act (strike : Strike)
  | ban (user : ℚ)
  | cleanup (user : ℚ)
  | answered (outcome : GroupGuardOutcome)
  | failed
  deriving DecidableEq

/-- A member to watch: not a bot. -/
def newMember (member : JsonValue) : Option ℚ :=
  match member.field "is_bot", member.field "id" with
  | some (.bool true), _ => none
  | _, some (.number id) => some id
  | _, _ => none

/-- Up to its first statement. -/
def handleGroupUpdate (env : GuardEnv) (update : JsonValue) (now : ℚ) : GuardPoint :=
  match messageInChat env update with
  | none => .answered .ignored
  | some (message, edited) =>
    match message.field "new_chat_members" with
    | some (.array joined) => .join (joined.filterMap newMember) now
    | _ =>
      match (message.field "from").bind (·.field "id"), message.field "message_id" with
      | some (.number userId), some (.number messageId) =>
        match isSuspiciousMessage env message with
        | none => .failed
        | some true => .suspicious userId messageId now
        | some false => if edited then .answered .ignored else .clean userId now
      | _, _ => .answered .ignored

/-- What is asked of Telegram; the author of a deleted message is of the history. -/
inductive GuardRequest
  | deleteMessage (user messageId : ℚ)
  | banChatMember (user : ℚ)
  deriving DecidableEq

def GuardRequest.user : GuardRequest → ℚ
  | .deleteMessage user _ | .banChatMember user => user

/-- A call, with what it has asked of Telegram, and the strike that its message was if it was
handled under watch. -/
structure GuardCall where
  point : GuardPoint
  sent : List GuardRequest
  strike : Option Strike
  deriving DecidableEq

/-! ### The table and the history -/

/-- A row of `telegram_group_watch`. -/
structure WatchRow where
  chatId : String
  userId : ℚ
  expiresAt : ℚ
  clean : ℕ
  strikes : ℕ

def WatchRow.key (r : WatchRow) : String × ℚ := (r.chatId, r.userId)

/-- What has come of an account since its latest join. -/
structure Since where
  expiresAt : ℚ
  clean : ℕ
  strikes : ℕ
  banned : Bool

/-- Which counter a message bumps. -/
inductive Counter
  | clean
  | strikes

def WatchRow.bump : Counter → WatchRow → WatchRow
  | .clean, r => { r with clean := r.clean + 1 }
  | .strikes, r => { r with strikes := r.strikes + 1 }

def Since.bump : Counter → Since → Since
  | .clean, s => { s with clean := s.clean + 1 }
  | .strikes, s => { s with strikes := s.strikes + 1 }

/-- The watch is on. -/
def Since.On (cfg : GroupGuardConfig) (now : ℚ) (s : Since) : Prop :=
  now < s.expiresAt ∧ s.clean < cfg.cleanMessages ∧ s.banned = false

instance (cfg : GroupGuardConfig) (now : ℚ) (s : Since) : Decidable (s.On cfg now) :=
  inferInstanceAs (Decidable (_ ∧ _))

/-- The row that shows it. -/
def Since.row (s : Since) (chatId : String) (user : ℚ) : WatchRow :=
  ⟨chatId, user, s.expiresAt, s.clean, s.strikes⟩

structure GuardWorld where
  now : ℚ
  watch : KeyedTable WatchRow.key
  since : ℚ → Option Since

theorem WatchRow.key_bump (k : Counter) (r : WatchRow) : (r.bump k).key = r.key := by
  cases k <;> rfl

/-- `INSERT … ON CONFLICT (chat_id, user_id) DO UPDATE`. -/
def openWatch (chatId : String) (expiresAt : ℚ) (watch : KeyedTable WatchRow.key) (userId : ℚ) :
    KeyedTable WatchRow.key :=
  watch.upsert ⟨chatId, userId, expiresAt, 0, 0⟩
    (fun r => { r with expiresAt := expiresAt, clean := 0, strikes := 0 }) fun _ _ => rfl

/-- The batch of a join: expired rows are swept, and watches opened. -/
def joinBatch (chatId : String) (time expiresAt : ℚ) (members : List ℚ)
    (watch : KeyedTable WatchRow.key) : KeyedTable WatchRow.key :=
  members.foldl (openWatch chatId expiresAt)
    (watch.deleteWhere fun r => decide (r.expiresAt ≤ time))

/-- `WHERE chat_id = ? AND user_id = ? AND expires_at > ?`. -/
def isWatched (chatId : String) (user time : ℚ) (r : WatchRow) : Bool :=
  decide (r.key = (chatId, user) ∧ time < r.expiresAt)

/-- What becomes of one account. -/
def changed (since : ℚ → Option Since) (user : ℚ) (f : Since → Since) (u : ℚ) : Option Since :=
  if u = user then (since u).map f else since u

/-- `UPDATE … RETURNING`, for one of the counters; the history counts every message. -/
def GuardWorld.count (w : GuardWorld) (chatId : String) (k : Counter) (user time : ℚ) :
    GuardWorld × Option WatchRow :=
  ({ w with
      watch := w.watch.updateWhere (isWatched chatId user time) (WatchRow.bump k)
        fun r _ => r.key_bump k
      since := changed w.since user (Since.bump k) },
    (w.watch.rows.find? (isWatched chatId user time)).map (WatchRow.bump k))

/-- `DELETE … WHERE chat_id = ? AND user_id = ?`. -/
def GuardWorld.drop (w : GuardWorld) (chatId : String) (user : ℚ) : GuardWorld :=
  { w with watch := w.watch.deleteWhere fun r => decide (r.key = (chatId, user)) }

/-- The strike that a suspicious message is, if its author is under watch. -/
def GuardWorld.strikeOf (w : GuardWorld) (cfg : GroupGuardConfig) (user messageId : ℚ) :
    Option Strike :=
  (w.since user).bind fun s =>
    if s.On cfg w.now then some ⟨user, messageId, s.strikes + 1⟩ else none

/-- After the `UPDATE` for an unsuspicious message. -/
def GuardPoint.afterClean (cfg : GroupGuardConfig) (user : ℚ) : Option WatchRow → GuardPoint
  | none => .answered .ignored
  | some r => if cfg.cleanMessages ≤ r.clean then .release user else .answered .clean

/-- After the `UPDATE` for a suspicious one. -/
def GuardPoint.afterStrike (user messageId : ℚ) : Option WatchRow → GuardPoint
  | none => .answered .ignored
  | some r => .act ⟨user, messageId, r.strikes⟩

/-- One step of a call; Telegram decides whether a ban succeeds. -/
def guardStep (env : GuardEnv) (bans : Bool) (w : GuardWorld) (c : GuardCall) :
    Option (GuardWorld × GuardCall) :=
  match c.point with
  | .join members time =>
    let expiresAt := time + env.cfg.watchHours * 3600000
    some ({ w with
      watch := joinBatch env.chatId time expiresAt members w.watch
      since := fun u => if u ∈ members then some ⟨expiresAt, 0, 0, false⟩ else w.since u },
      { c with point := .answered (if members = [] then .ignored else .joined) })
  | .clean user time =>
    let (w', row) := w.count env.chatId .clean user time
    some (w', { c with point := .afterClean env.cfg user row })
  | .release user => some (w.drop env.chatId user, { c with point := .answered .clean })
  | .suspicious user messageId time =>
    let (w', row) := w.count env.chatId .strikes user time
    some (w', ⟨.afterStrike user messageId row, c.sent, w.strikeOf env.cfg user messageId⟩)
  | .act strike =>
    let sent := .deleteMessage strike.user strike.messageId :: c.sent
    if env.cfg.strikesToBan ≤ strike.count then
      some (w, ⟨.ban strike.user, .banChatMember strike.user :: sent, c.strike⟩)
    else some (w, ⟨.answered .deleted, sent, c.strike⟩)
  | .ban user =>
    -- a ban that fails leaves the watch on
    if bans then
      some ({ w with since := changed w.since user fun s => { s with banned := true } },
        { c with point := .cleanup user })
    else some (w, { c with point := .answered .deleted })
  | .cleanup user => some (w.drop env.chatId user, { c with point := .answered .banned })
  | .answered _ | .failed => none

/-- Calls at once. A call takes its time when it starts; the clock goes on. -/
def guardProgram (env : GuardEnv) : Program GuardWorld GuardCall where
  Start w c := ∃ update, c = ⟨handleGroupUpdate env update w.now, [], none⟩
  Step w c w' c' := ∃ bans, guardStep env bans w c = some (w', c')
  Env w w' := ∃ now, w.now ≤ now ∧ w' = { w with now := now }

/-- No account has been seen joining yet. -/
def GuardWorld.Initial (w : GuardWorld) : Prop := w.watch.rows = [] ∧ ∀ u, w.since u = none

/-! ### What the guard is for -/

/-- A watch that is on is in the table; a suspicious message under watch is deleted, or about to be,
and leads to a ban attempt from the limit on; only accounts that have joined are acted on. -/
structure GuardRight {ι : Type*} (env : GuardEnv) (s : Interleaved GuardWorld GuardCall ι) :
    Prop where
  stays : ∀ u since, s.shared.since u = some since → since.On env.cfg s.shared.now →
    since.row env.chatId u ∈ s.shared.watch.rows
  acts : ∀ i c strike, s.procs i = some c → c.strike = some strike → c.point = .act strike ∨
    .deleteMessage strike.user strike.messageId ∈ c.sent ∧
      (env.cfg.strikesToBan ≤ strike.count → .banChatMember strike.user ∈ c.sent)
  spares : ∀ i c, s.procs i = some c → ∀ r ∈ c.sent, (s.shared.since r.user).isSome

/-- The account whose row is deleted next. -/
def GuardPoint.drops : GuardPoint → Option ℚ
  | .release user | .cleanup user => some user
  | _ => none

/-- The accounts that join next. -/
def GuardPoint.joins : GuardPoint → List ℚ
  | .join members _ => members
  | _ => []

/-- No account joins while another call is about to delete its row. -/
def guardCondition : Program.Condition GuardWorld GuardCall where
  state _ := True
  mover _ _ := True
  others _ c m := ∀ u ∈ c.point.joins, m.point.drops ≠ some u

section Guard

variable {env : GuardEnv} {w w' : GuardWorld} {c c' : GuardCall} {u user time : ℚ}

/-- The table shows what the history says. -/
structure GuardInv (env : GuardEnv) (w : GuardWorld) : Prop where
  stays : ∀ u s, w.since u = some s → s.On env.cfg w.now → s.row env.chatId u ∈ w.watch.rows
  joined : ∀ r ∈ w.watch.rows, r.chatId = env.chatId → (w.since r.userId).isSome

/-- What a call relies on, where it stands. -/
def GuardPoint.Sound (env : GuardEnv) (w : GuardWorld) : GuardPoint → Prop
  | .join _ time | .clean _ time | .suspicious _ _ time => time ≤ w.now
  | .release user | .cleanup user => ∀ s, w.since user = some s → ¬s.On env.cfg w.now
  | .act strike => (w.since strike.user).isSome
  | .ban user => (w.since user).isSome
  | _ => True

structure GuardCall.Sound (env : GuardEnv) (w : GuardWorld) (c : GuardCall) : Prop where
  point : c.point.Sound env w
  acts : ∀ strike, c.strike = some strike → c.point = .act strike ∨
    .deleteMessage strike.user strike.messageId ∈ c.sent ∧
      (env.cfg.strikesToBan ≤ strike.count → .banChatMember strike.user ∈ c.sent)
  spares : ∀ r ∈ c.sent, (w.since r.user).isSome

/-- The clock goes on, accounts stay known, and only a join turns a watch on. -/
structure GuardLater (env : GuardEnv) (joined : List ℚ) (w w' : GuardWorld) : Prop where
  now : w.now ≤ w'.now
  known : ∀ u, (w.since u).isSome → (w'.since u).isSome
  off : ∀ u ∉ joined, (∀ s, w.since u = some s → ¬s.On env.cfg w.now) →
    ∀ s, w'.since u = some s → ¬s.On env.cfg w'.now

variable {joined : List ℚ} {r : WatchRow} {s : Since} {watch : KeyedTable WatchRow.key}
  {f : Since → Since}

theorem GuardPoint.Sound.later {p : GuardPoint} (h : p.Sound env w)
    (hlater : GuardLater env joined w w') (hfree : ∀ u ∈ joined, p.drops ≠ some u) :
    p.Sound env w' := by
  cases p with
  | join _ _ | clean _ _ | suspicious _ _ _ => exact h.trans hlater.now
  | release user | cleanup user => exact hlater.off user (fun hu => hfree user hu rfl) h
  | act strike | ban user => exact hlater.known _ h
  | answered _ | failed => trivial

theorem GuardCall.Sound.later (h : c.Sound env w) (hlater : GuardLater env joined w w')
    (hfree : ∀ u ∈ joined, c.point.drops ≠ some u) : c.Sound env w' :=
  ⟨h.point.later hlater hfree, h.acts, fun r hr => hlater.known _ (h.spares r hr)⟩

/-! ### The statements -/

theorem isWatched_iff : isWatched env.chatId user time r = true ↔
    r.key = (env.chatId, user) ∧ time < r.expiresAt :=
  decide_eq_true_iff

theorem row_bump (k : Counter) (s : Since) (chatId : String) (u : ℚ) :
    (s.bump k).row chatId u = (s.row chatId u).bump k := by
  cases k <;> rfl

theorem on_of_bump {k : Counter} {now : ℚ} (h : (s.bump k).On env.cfg now) : s.On env.cfg now := by
  cases k with
  | clean => exact ⟨h.1, (by push_cast [Since.bump]; linarith : (s.clean : ℚ) <
      ((s.bump .clean).clean : ℕ)).trans h.2.1, h.2.2⟩
  | strikes => exact h

theorem mem_openWatch {chatId : String} {expiresAt : ℚ} :
    r ∈ (openWatch chatId expiresAt watch u).rows ↔
      r ∈ watch.rows ∧ r.key ≠ (chatId, u) ∨ r = ⟨chatId, u, expiresAt, 0, 0⟩ := by
  refine (KeyedTable.mem_upsert _).trans (or_congr_right ⟨?_, ?_⟩)
  · rintro (⟨⟨_, _, _, _, _⟩, -, ⟨⟩, rfl⟩ | ⟨rfl, -⟩) <;> rfl
  · rintro rfl
    by_cases htaken : (chatId, u) ∈ watch.rows.map WatchRow.key
    · obtain ⟨⟨_, _, _, _, _⟩, hmem, ⟨⟩⟩ := List.mem_map.mp htaken
      exact .inl ⟨_, hmem, rfl, rfl⟩
    · exact .inr ⟨rfl, htaken⟩

theorem mem_joinBatch {chatId : String} {expiresAt : ℚ} {members : List ℚ} :
    r ∈ (joinBatch chatId time expiresAt members watch).rows ↔
      r ∈ watch.rows ∧ time < r.expiresAt ∧ (∀ u ∈ members, r.key ≠ (chatId, u)) ∨
        ∃ u ∈ members, r = ⟨chatId, u, expiresAt, 0, 0⟩ := by
  suffices h : ∀ watch : KeyedTable WatchRow.key,
      r ∈ (members.foldl (openWatch chatId expiresAt) watch).rows ↔
        r ∈ watch.rows ∧ (∀ u ∈ members, r.key ≠ (chatId, u)) ∨
          ∃ u ∈ members, r = ⟨chatId, u, expiresAt, 0, 0⟩ by
    refine (h _).trans (or_congr_left ?_)
    rw [KeyedTable.deleteWhere, Table.mem_deleteWhere, decide_eq_false_iff_not, not_le, and_assoc]
  induction members with
  | nil => simp
  | cons u members ih =>
    intro watch
    rw [List.foldl_cons, ih, mem_openWatch]
    simp only [List.forall_mem_cons, List.exists_mem_cons_iff]
    constructor
    · rintro (⟨⟨hmem, hu⟩ | rfl, hrest⟩ | hrest)
      · exact .inl ⟨hmem, hu, hrest⟩
      · exact .inr (.inl rfl)
      · exact .inr (.inr hrest)
    · rintro (⟨hmem, hu, hrest⟩ | rfl | hrest)
      · exact .inl ⟨.inl ⟨hmem, hu⟩, hrest⟩
      · by_cases hu : u ∈ members
        · exact .inr ⟨u, hu, rfl⟩
        · refine .inl ⟨.inr rfl, fun v hv h => hu ?_⟩
          obtain rfl : u = v := congrArg Prod.snd h
          exact hv
      · exact .inr hrest

theorem find_of_on (hinv : GuardInv env w) (htime : time ≤ w.now) (hs : w.since user = some s)
    (hon : s.On env.cfg w.now) :
    w.watch.rows.find? (isWatched env.chatId user time) = some (s.row env.chatId user) := by
  have hmem := hinv.stays user s hs hon
  have hwatched : isWatched env.chatId user time (s.row env.chatId user) = true :=
    isWatched_iff.mpr ⟨rfl, htime.trans_lt hon.1⟩
  obtain ⟨r, hr⟩ := Option.isSome_iff_exists.mp
    (List.find?_isSome.mpr ⟨_, hmem, hwatched⟩)
  rw [hr, w.watch.eq_of_key (List.mem_of_find?_eq_some hr) hmem
    (isWatched_iff.mp (List.find?_some hr)).1]

theorem changed_eq_some {since : ℚ → Option Since} (h : changed since user f u = some s) :
    ∃ s₀, since u = some s₀ ∧ (u = user ∧ s = f s₀ ∨ u ≠ user ∧ s = s₀) := by
  rw [changed] at h
  split_ifs at h with hu
  · obtain ⟨s₀, hs, rfl⟩ := Option.map_eq_some_iff.mp h
    exact ⟨s₀, hs, .inl ⟨hu, rfl⟩⟩
  · exact ⟨s, h, .inr ⟨hu, rfl⟩⟩

theorem isSome_changed (since : ℚ → Option Since) (f : Since → Since) :
    (changed since user f u).isSome = (since u).isSome := by
  rw [changed]
  split_ifs
  · exact Option.isSome_map
  · rfl

theorem GuardInv.count (hinv : GuardInv env w) (k : Counter) (htime : time ≤ w.now) :
    GuardInv env (w.count env.chatId k user time).1 := by
  refine ⟨fun u s hs hon => Table.mem_updateWhere.mpr ?_, fun r hr hchat => ?_⟩
  · obtain ⟨s, hold, ⟨rfl, rfl⟩ | ⟨hu, rfl⟩⟩ := changed_eq_some hs
    · have hon' := on_of_bump hon
      exact .inr ⟨_, hinv.stays u s hold hon',
        isWatched_iff.mpr ⟨rfl, htime.trans_lt hon'.1⟩, row_bump k s _ u⟩
    · refine .inl ⟨hinv.stays u _ hold hon, Bool.eq_false_iff.mpr fun h => hu ?_⟩
      exact congrArg Prod.snd (isWatched_iff.mp h).1
  · obtain ⟨r₀, hmem, hkey⟩ : ∃ r₀ ∈ w.watch.rows, r.key = r₀.key := by
      rcases Table.mem_updateWhere.mp hr with ⟨hmem, -⟩ | ⟨r₀, hmem, -, rfl⟩
      · exact ⟨r, hmem, rfl⟩
      · exact ⟨r₀, hmem, r₀.key_bump k⟩
    obtain ⟨hchat', huser⟩ := Prod.mk.inj hkey
    rw [huser]
    exact (isSome_changed ..).trans (hinv.joined r₀ hmem (hchat'.symm.trans hchat))

theorem GuardInv.drop (hinv : GuardInv env w)
    (hoff : ∀ s, w.since user = some s → ¬s.On env.cfg w.now) :
    GuardInv env (w.drop env.chatId user) := by
  refine ⟨fun u s hs hon => Table.mem_deleteWhere.mpr ⟨hinv.stays u s hs hon, ?_⟩,
    fun r hr => hinv.joined r (Table.mem_deleteWhere.mp hr).1⟩
  refine decide_eq_false fun h => ?_
  obtain rfl : u = user := congrArg Prod.snd h
  exact hoff s hs hon

/-! ### One step -/

theorem guardLater_changed (hf : ∀ s, (f s).On env.cfg w.now → s.On env.cfg w.now) :
    GuardLater env [] w ⟨w.now, watch, changed w.since user f⟩ := by
  refine ⟨le_rfl, fun u hu => (isSome_changed ..).trans hu, fun u _ hoff s hs hon => ?_⟩
  obtain ⟨s, hold, ⟨-, rfl⟩ | ⟨-, rfl⟩⟩ := changed_eq_some hs
  · exact hoff s hold (hf s hon)
  · exact hoff _ hold hon

theorem guardLater_refl (joined : List ℚ) : GuardLater env joined w w :=
  ⟨le_rfl, fun _ h => h, fun _ _ h => h⟩

theorem guardStep_later {bans : Bool} (hstep : guardStep env bans w c = some (w', c')) :
    GuardLater env c.point.joins w w' := by
  obtain ⟨point, sent, strike⟩ := c
  cases point with
  | join members time =>
    obtain ⟨rfl, -⟩ := Prod.mk.inj (Option.some.inj hstep)
    refine ⟨le_rfl, fun u hu => ?_, fun u hu hoff s hs => hoff s ((if_neg hu).symm.trans hs)⟩
    by_cases hmem : u ∈ members
    · exact congrArg Option.isSome (if_pos hmem)
    · exact (congrArg Option.isSome (if_neg hmem)).trans hu
  | clean user time | suspicious user messageId time =>
    obtain ⟨rfl, -⟩ := Prod.mk.inj (Option.some.inj hstep)
    exact guardLater_changed fun _ => on_of_bump
  | release user | cleanup user =>
    obtain ⟨rfl, -⟩ := Prod.mk.inj (Option.some.inj hstep)
    exact ⟨le_rfl, fun _ h => h, fun _ _ h => h⟩
  | act strike =>
    simp only [guardStep] at hstep
    split_ifs at hstep <;> cases hstep <;> exact guardLater_refl _
  | ban user =>
    rw [guardStep] at hstep
    split_ifs at hstep <;> cases hstep
    · exact guardLater_changed fun s hon => ⟨hon.1, hon.2.1, nomatch hon.2.2⟩
    · exact guardLater_refl _
  | answered _ | failed => cases hstep

theorem GuardCall.Sound.goTo {p : GuardPoint} (h : c.Sound env w)
    (hact : ∀ strike, c.point ≠ .act strike) (hp : p.Sound env w')
    (hknown : ∀ u, (w.since u).isSome → (w'.since u).isSome) :
    GuardCall.Sound env w' { c with point := p } :=
  ⟨hp, fun strike hs => .inr ((h.acts strike hs).resolve_left (hact strike)),
    fun r hr => hknown _ (h.spares r hr)⟩

theorem guardStep_sound {bans : Bool} (hinv : GuardInv env w) (hc : c.Sound env w)
    (hstep : guardStep env bans w c = some (w', c')) : GuardInv env w' ∧ c'.Sound env w' := by
  have hlater := guardStep_later hstep
  obtain ⟨point, sent, strike⟩ := c
  cases point with
  | join members time =>
    cases hstep
    refine ⟨⟨fun u s hs hon => mem_joinBatch.mpr ?_, fun r hr hchat => ?_⟩,
      hc.goTo (fun _ => nofun) trivial hlater.known⟩
    · by_cases hu : u ∈ members
      · cases (if_pos hu).symm.trans hs
        exact .inr ⟨u, hu, rfl⟩
      · have hold := (if_neg hu).symm.trans hs
        refine .inl ⟨hinv.stays u s hold hon, lt_of_le_of_lt hc.point hon.1, fun v hv h => hu ?_⟩
        obtain rfl : u = v := congrArg Prod.snd h
        exact hv
    · rcases mem_joinBatch.mp hr with ⟨hmem, -, -⟩ | ⟨u, hu, rfl⟩
      · exact hlater.known _ (hinv.joined r hmem hchat)
      · exact congrArg Option.isSome (if_pos hu)
  | clean user time =>
    cases hstep
    refine ⟨hinv.count .clean hc.point, hc.goTo (fun _ => nofun) ?_ hlater.known⟩
    change (GuardPoint.afterClean env.cfg user ((w.watch.rows.find? (isWatched env.chatId user
      time)).map (WatchRow.bump .clean))).Sound env (w.count env.chatId .clean user time).1
    rcases hfind : w.watch.rows.find? (isWatched env.chatId user time) with _ | r
    · trivial
    · rw [Option.map_some, GuardPoint.afterClean]
      split_ifs with hclean
      · -- released: the count that was returned is the history's, if the watch is still on
        intro s hs hon
        obtain ⟨s, hold, ⟨-, rfl⟩ | ⟨hu, -⟩⟩ := changed_eq_some hs
        · obtain rfl := Option.some.inj
            (hfind.symm.trans (find_of_on hinv hc.point hold (on_of_bump hon)))
          exact absurd hon.2.1 (not_lt.mpr hclean)
        · exact hu rfl
      · trivial
  | release user | cleanup user =>
    cases hstep
    exact ⟨hinv.drop hc.point, hc.goTo (fun _ => nofun) trivial hlater.known⟩
  | suspicious user messageId time =>
    cases hstep
    refine ⟨hinv.count .strikes hc.point, ?_, fun strike hs => .inl ?_,
      fun r hr => hlater.known _ (hc.spares r hr)⟩
    · change (GuardPoint.afterStrike user messageId ((w.watch.rows.find? (isWatched env.chatId user
        time)).map (WatchRow.bump .strikes))).Sound env (w.count env.chatId .strikes user time).1
      rcases hfind : w.watch.rows.find? (isWatched env.chatId user time) with _ | r
      · trivial
      · obtain ⟨hchat, rfl⟩ := Prod.mk.inj (isWatched_iff.mp (List.find?_some hfind)).1
        exact hlater.known _ (hinv.joined r (List.mem_of_find?_eq_some hfind) hchat)
    · -- under watch, the row is found, and its count is the history's
      obtain ⟨s, hold, hs⟩ := Option.bind_eq_some_iff.mp hs
      split_ifs at hs with hon
      cases hs
      exact congrArg (GuardPoint.afterStrike user messageId <| Option.map (WatchRow.bump .strikes) ·)
        (find_of_on hinv hc.point hold hon)
  | act k =>
    have hspares : ∀ r ∈ sent, (w.since r.user).isSome := hc.spares
    simp only [guardStep] at hstep
    split_ifs at hstep with hlimit <;> cases hstep
    · refine ⟨hinv, hc.point, fun k' hk => .inr ?_, ?_⟩
      · rcases hc.acts k' hk with h | ⟨hdelete, hban⟩
        · cases h
          simp
        · exact ⟨by simp [show _ ∈ sent from hdelete], fun h => by simp [show _ ∈ sent from hban h]⟩
      · exact List.forall_mem_cons.mpr ⟨hc.point, List.forall_mem_cons.mpr ⟨hc.point, hspares⟩⟩
    · refine ⟨hinv, trivial, fun k' hk => .inr ?_, List.forall_mem_cons.mpr ⟨hc.point, hspares⟩⟩
      rcases hc.acts k' hk with h | ⟨hdelete, hban⟩
      · cases h
        exact ⟨List.mem_cons_self, fun h => absurd h hlimit⟩
      · exact ⟨List.mem_cons_of_mem _ hdelete, fun h => List.mem_cons_of_mem _ (hban h)⟩
  | ban user =>
    rw [guardStep] at hstep
    split_ifs at hstep <;> cases hstep
    · refine ⟨⟨fun u s hs hon => ?_, fun r hr hchat => hlater.known _ (hinv.joined r hr hchat)⟩,
        hc.goTo (fun _ => nofun) (fun s hs hon => ?_) hlater.known⟩
      · obtain ⟨_, hold, ⟨-, rfl⟩ | ⟨-, rfl⟩⟩ := changed_eq_some hs
        · exact nomatch hon.2.2
        · exact hinv.stays u _ hold hon
      · obtain ⟨_, -, ⟨-, rfl⟩ | ⟨hu, -⟩⟩ := changed_eq_some hs
        · exact nomatch hon.2.2
        · exact hu rfl
    · exact ⟨hinv, hc.goTo (fun _ => nofun) trivial hlater.known⟩
  | answered _ | failed => cases hstep

/-! ### Every run -/

theorem handleGroupUpdate_sound (update : JsonValue) :
    (handleGroupUpdate env update w.now).Sound env w := by
  rw [handleGroupUpdate]
  split
  · trivial
  · split
    · exact le_rfl
    · split
      · split
        · trivial
        · exact le_rfl
        · split_ifs
          · trivial
          · exact le_rfl
      · trivial

def guardSound (env : GuardEnv) :
    (guardProgram env).SoundWhen guardCondition GuardWorld.Initial where
  inv := GuardInv env
  asserts w c := c.Sound env w
  apart _ _ := True
  symm _ _ _ := trivial
  init w hinit := ⟨fun u s hs => (nomatch (hinit.2 u).symm.trans hs), by simp [hinit.1]⟩
  start w c _ _ hstart := by
    obtain ⟨update, rfl⟩ := hstart
    exact ⟨⟨handleGroupUpdate_sound update, fun _ => nofun, fun _ => nofun⟩, fun _ _ => trivial⟩
  step w c w' c' _ _ hinv hc hstep := by
    obtain ⟨bans, hstep⟩ := hstep
    exact guardStep_sound hinv hc hstep
  noninterference w c w' c' m _ _ hothers _ _ hm _ hstep := by
    obtain ⟨bans, hstep⟩ := hstep
    exact ⟨hm.later (guardStep_later hstep) hothers, trivial⟩
  env w w' _ hinv henv := by
    obtain ⟨now, hnow, rfl⟩ := henv
    have hoff : ∀ s : Since, s.On env.cfg now → s.On env.cfg w.now := fun s hon =>
      ⟨hnow.trans_lt hon.1, hon.2⟩
    refine ⟨⟨fun u s hs hon => hinv.stays u s hs (hoff s hon), hinv.joined⟩, fun m hm => ?_⟩
    have hlater : GuardLater env [] w { w with now := now } :=
      ⟨hnow, fun _ h => h, fun _ _ h s hs hon => h s hs (hoff s hon)⟩
    exact hm.later hlater fun _ => nofun

/-- **Runs in which no account rejoins while its row is about to be deleted are right**, in every
state: no watch is lost before its end, and no strike. -/
theorem guardRight {ι : Type*} [DecidableEq ι] {s : Interleaved GuardWorld GuardCall ι}
    (h : (((guardProgram env).system ι GuardWorld.Initial).restrict
      guardCondition.Met).Reachable s) : GuardRight env s := by
  obtain ⟨hinv, hcalls, -⟩ := (guardSound env).holds h
  exact ⟨hinv.stays, fun i c strike hi => (hcalls i c hi).acts strike,
    fun i c hi => (hcalls i c hi).spares⟩

end Guard

/-! ### Two runs -/

section Samples

def sampleGuard : GuardEnv :=
  ⟨⟨"-1001", "bot", { GROUP_GUARD_DEFAULTS with cleanMessages := 1 }⟩, fun q => toString q.num,
    Cardano.asciiLower⟩

def sampleMessage (field : String × JsonValue) : JsonValue :=
  .object [("message", .object [("chat", .object [("id", .number (-1001))]),
    ("message_id", .number 5), ("from", .object [("id", .number 7)]), field])]

/-- The account joins, says hello, and joins again; and it sends two links. -/
def sampleUpdates : Fin 5 → JsonValue
  | 0 | 2 => sampleMessage ("new_chat_members", .array [.object [("id", .number 7)]])
  | 1 => sampleMessage ("text", .string "hello")
  | 3 | 4 => sampleMessage ("text", .string "see www.example")

def sampleGuarded : Interleaved GuardWorld GuardCall (Fin 5) :=
  ⟨⟨0, .empty, fun _ => none⟩,
    fun i => some ⟨handleGroupUpdate sampleGuard (sampleUpdates i) 0, [], none⟩⟩

theorem sampleGuarded_reachable :
    (((guardProgram sampleGuard).system (Fin 5) GuardWorld.Initial).restrict
      guardCondition.Met).Reachable sampleGuarded :=
  Program.reachable_started ⟨rfl, fun _ => rfl⟩ trivial _ fun i => ⟨sampleUpdates i, rfl⟩

theorem drops_handleGroupUpdate (env : GuardEnv) (update : JsonValue) (now : ℚ) :
    (handleGroupUpdate env update now).drops = none := by
  rw [handleGroupUpdate]
  split
  · rfl
  · split
    · rfl
    · split
      · split
        · rfl
        · rfl
        · split_ifs <;> rfl
      · rfl

/-- A step, where it is not a join. -/
def lonelyStep (bans : Bool) (w : GuardWorld) (c : GuardCall) : Option (GuardWorld × GuardCall) :=
  if c.point.joins = [] then guardStep sampleGuard bans w c else none

theorem guardStep_moves (env : GuardEnv) (bans : Bool) (w : GuardWorld) (c : GuardCall)
    (w' : GuardWorld) (c' : GuardCall) (h : guardStep env bans w c = some (w', c')) :
    (guardProgram env).Step w c w' c' :=
  ⟨bans, h⟩

theorem lonelyStep_moves (bans : Bool) (w : GuardWorld) (c : GuardCall) (w' : GuardWorld)
    (c' : GuardCall) (h : lonelyStep bans w c = some (w', c')) :
    (guardProgram sampleGuard).Step w c w' c' ∧ True ∧ True := by
  rw [lonelyStep] at h
  split_ifs at h
  exact ⟨⟨bans, h⟩, trivial, trivial⟩

theorem lonelyStep_others (bans : Bool) (w : GuardWorld) (c : GuardCall)
    (out : GuardWorld × GuardCall) (h : lonelyStep bans w c = some out) (m : GuardCall) :
    guardCondition.others w c m := by
  rw [lonelyStep] at h
  split_ifs at h with hjoins
  intro u hu
  rw [hjoins] at hu
  cases hu

def sampleJoined : Option (Interleaved GuardWorld GuardCall (Fin 5)) :=
  Program.run (guardStep sampleGuard) [(0, true)] sampleGuarded

def sampleLinks (joined : Interleaved GuardWorld GuardCall (Fin 5)) :
    Option (Interleaved GuardWorld GuardCall (Fin 5)) :=
  Program.run lonelyStep [(3, true), (4, true), (3, true), (4, true), (4, true), (4, true)] joined

/-- The account joins, says hello, joins again before the release, and sends a link. -/
def sampleRejoined : Option (Interleaved GuardWorld GuardCall (Fin 5)) :=
  Program.run (guardStep sampleGuard) [(0, true), (1, true), (2, true), (1, true), (3, true)]
    sampleGuarded

theorem isSome_sampleJoined : sampleJoined.isSome := by decide +kernel

theorem isSome_sampleLinks : (sampleLinks (sampleJoined.get isSome_sampleJoined)).isSome := by
  decide +kernel

theorem isSome_sampleRejoined : sampleRejoined.isSome := by decide +kernel

theorem sampleJoined_reachable : (((guardProgram sampleGuard).system (Fin 5)
    GuardWorld.Initial).restrict guardCondition.Met).Reachable
      (sampleJoined.get isSome_sampleJoined) := by
  refine sampleGuarded_reachable.step (e := .step 0) ⟨⟨trivial, fun c _ => ⟨trivial, ?_⟩⟩,
    Program.moves_run (guardStep_moves sampleGuard) _ _ _ isSome_sampleJoined⟩
  intro j m _ hj u _ hu
  cases hj
  exact nomatch (drops_handleGroupUpdate ..).symm.trans hu

/-- Two links at once still add up to a ban. -/
theorem guardRight_banned : ∃ s : Interleaved GuardWorld GuardCall (Fin 5),
    GuardRight sampleGuard s ∧ s.shared.watch.rows.length = 0 ∧
      (s.procs 4).map GuardCall.sent = some [.banChatMember 7, .deleteMessage 7 5] := by
  exact ⟨_, guardRight (Program.reachable_runWhen lonelyStep_others lonelyStep_moves
    sampleJoined_reachable _ isSome_sampleLinks), by decide +kernel, by decide +kernel⟩

/-- **A rejoin before the release** loses the fresh watch, and the next link is ignored. -/
theorem not_guardRight : ¬∀ (env : GuardEnv) (s : Interleaved GuardWorld GuardCall (Fin 5)),
    ((guardProgram env).system (Fin 5) GuardWorld.Initial).Reachable s → GuardRight env s := by
  intro h
  have hright := h _ _ (Program.reachable_run (guardStep_moves sampleGuard)
    sampleGuarded_reachable.of_restrict _ isSome_sampleRejoined)
  have hcall : (sampleRejoined.get isSome_sampleRejoined).procs 3 =
      some ⟨.answered .ignored, [], some ⟨7, 5, 1⟩⟩ := by decide +kernel
  rcases hright.acts 3 _ _ hcall rfl with hact | ⟨hsent, -⟩
  · cases hact
  · cases hsent

end Samples

end DrepTalk
