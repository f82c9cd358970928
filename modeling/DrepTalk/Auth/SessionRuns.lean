import DrepTalk.Auth.SessionIndex
import DrepTalk.Library.TransitionSystem

/-!
# Runs of session calls

Calls arrive one after the other, at clock readings that never go back, over any users and
tokens; between two calls time may pass.

**The index covers the live sessions, with one exception.** A sliding renewal writes the shared
index with the TTL of the one session that is renewed, and that is cut at this session's cap: if
another session of the user lives longer, the index is gone before it is. `KeepsIndex` is the
condition on a call that this does not happen. In every run whose calls all meet it the index
covers the live sessions, logging out everywhere leaves none of them, and the device list shows
them all (`index_covers_sessions`); a call that does not meet it breaks this as time goes by.
-/

namespace DrepTalk

open ExpiringStore

inductive SessionCall
  | createSession (token : String) (user : SessionUser) (lifetimeStart : Option ℤ)
      (label : Option String)
  | getSession (token : String)
  | revokeSession (token : String)
  | revokeSessionForUser (userId sessionId : String)
  | listSessionsForUser (userId : String)
  | revokeAllForUser (userId : String)

/-- A clock reading, with the call made at it; without one time has just passed. -/
structure SessionEvent where
  now : ℤ
  call : Option SessionCall

/-- The store and the last clock reading. -/
structure SessionState where
  kv : SessionStore
  now : ℤ

section System

variable (sha256hex : String → String)

def runCall (kv : SessionStore) (now : ℤ) : SessionCall → SessionStore
  | .createSession token user lifetimeStart label =>
    createSession sha256hex kv now token user lifetimeStart label
  | .getSession token => (getSession sha256hex kv now token).1
  | .revokeSession token => revokeSession sha256hex kv now token
  | .revokeSessionForUser userId sessionId => (revokeSessionForUser kv now userId sessionId).1
  | .listSessionsForUser userId => (listSessionsForUser kv now userId).1
  | .revokeAllForUser userId => revokeAllForUser kv now userId

def SessionState.after (s : SessionState) (e : SessionEvent) : SessionState :=
  ⟨e.call.elim s.kv (runCall sha256hex s.kv e.now), e.now⟩

/-- Sequential runs from the empty store, with clock readings that never go back. -/
def sessionSystem : TransitionSystem SessionState SessionEvent where
  Init s := s.kv = ExpiringStore.empty
  Step s e s' := s.now ≤ e.now ∧ s' = SessionState.after sha256hex s e

/-- The condition on a call: a sliding renewal does not cut the index short, since no other live
session of the user outlasts the TTL of the session that is renewed. -/
def KeepsIndex (s : SessionState) (e : SessionEvent) : Prop :=
  ∀ token record, e.call = some (.getSession token) →
    readRecord s.kv e.now (sha256hex token) = some record → e.now ≤ lifetimeEndsAt record →
      e.now - record.lastSeen > SLIDING_WINDOW_SEC →
        ∀ hash other expires, hash ≠ sha256hex token →
          s.kv.entry (sessKey hash) = some ⟨.session other, expires⟩ →
            other.userId = record.userId → e.now < diesAt other expires →
              diesAt other expires ≤ e.now + renewalTtl record e.now

structure SessionState.Good (s : SessionState) : Prop where
  listed : Listed s.kv s.now
  bounded : Bounded s.kv s.now

variable {sha256hex}

variable {s : SessionState} {e : SessionEvent}

theorem KeepsIndex.renewSession {token : String} {record : SessionRecord}
    (hkeeps : KeepsIndex sha256hex s e) (hcall : e.call = some (.getSession token))
    (hlisted : Listed s.kv e.now) (hread : readRecord s.kv e.now (sha256hex token) = some record)
    (hcap : e.now ≤ lifetimeEndsAt record) (hslide : e.now - record.lastSeen > SLIDING_WINDOW_SEC) :
    Listed (renewSession s.kv e.now (sha256hex token) record) e.now := by
  obtain ⟨expires, he, hlt⟩ := readRecord_eq_some.mp hread
  obtain ⟨hashes, hindex, hmem⟩ :=
    hlisted.indexCovers _ record ⟨get_eq_some.mpr ⟨expires, he, hlt⟩, hcap⟩
  rw [DrepTalk.renewSession, hindex]
  refine @Listed.write _ _ hlisted _ { record with lastSeen := e.now } hashes _ _ hmem ?_ ?_
  · exact min_le_left _ _
  · intro hash' other expires' hne he' huser hlt'
    have hlive : Live s.kv e.now hash' other := live_iff.mpr ⟨expires', he', hlt'⟩
    obtain ⟨hashes', hindex', hmem'⟩ := hlisted.indexCovers hash' other hlive
    rw [huser, hindex, Option.some.injEq, KvValue.hashes.injEq] at hindex'
    exact ⟨hindex' ▸ hmem', hkeeps token record hcall hread hcap hslide hash' other expires' hne
      he' huser hlt'⟩

theorem Bounded.renewSession {kv : SessionStore} {now : ℤ} (h : Bounded kv now) (hash : String)
    (record : SessionRecord) : Bounded (renewSession kv now hash record) now := by
  have httl := renewalTtl_le record now
  rw [DrepTalk.renewSession]
  rcases kv.get now (usessKey record.userId) with _ | value
  · -- without an index only the record is written
    intro hash' other expires he
    rcases entry_of_put he with ⟨-, hnew⟩ | ⟨-, hold⟩
    · rw [StoreEntry.mk.injEq] at hnew
      omega
    · exact h hash' other expires hold
  · exact h.write hash record.userId _ value _ httl

theorem SessionState.Good.after (h : s.Good) (hle : s.now ≤ e.now)
    (hkeeps : KeepsIndex sha256hex s e) : (SessionState.after sha256hex s e).Good := by
  have hlisted := h.listed.later hle
  have hbound := h.bounded.later hle
  have hshrinks : ∀ {kv}, Shrinks e.now s.kv kv → (⟨kv, e.now⟩ : SessionState).Good :=
    fun hs => ⟨hs.listed hlisted hbound, hs.bounded hbound⟩
  rw [SessionState.after]
  rcases hcall : e.call with _ | ⟨token, user, start, label⟩ | token | token | ⟨user, id⟩ | user |
    user
  · exact ⟨hlisted, hbound⟩
  · exact ⟨hlisted.createSession hbound sha256hex token user start label,
      hbound.write _ _ _ _ _ (renewalTtl_le _ _)⟩
  · change SessionState.Good ⟨(getSession sha256hex s.kv e.now token).1, e.now⟩
    rw [getSession]
    rcases hread : readRecord s.kv e.now (sha256hex token) with _ | record
    · exact ⟨hlisted, hbound⟩
    · dsimp only
      split_ifs with hcap hslide
      · exact hshrinks (shrinks_deleteSessionByHash _ _ _)
      · -- the sliding renewal, the only call the condition is about
        exact ⟨hkeeps.renewSession hcall hlisted hread (by omega) hslide,
          hbound.renewSession _ _⟩
      · exact ⟨hlisted, hbound⟩
  · exact hshrinks (shrinks_deleteSessionByHash _ _ _)
  · exact hshrinks (shrinks_revokeSessionForUser _ _ _ _)
  · exact hshrinks (shrinks_listHashes _ _ _ _)
  · exact hshrinks (shrinks_revokeAllForUser _ _ _)

theorem good_of_reachable
    (h : ((sessionSystem sha256hex).restrict (KeepsIndex sha256hex)).Reachable s) : s.Good := by
  refine h.invariant ?_ ?_
  · intro s hinit
    change s.kv = ExpiringStore.empty at hinit
    constructor <;> intro hash record expires he <;> simp [hinit] at he
  · rintro s e _ hgood ⟨hkeeps, hle, rfl⟩
    exact hgood.after hle hkeeps

/-- A call keeps the index covering the live sessions, for as long as nothing else happens,
exactly if it meets the condition. -/
theorem SessionState.Good.keepsIndex_iff (h : s.Good) (hle : s.now ≤ e.now) :
    KeepsIndex sha256hex s e ↔
      ∀ later, e.now ≤ later → IndexCovers (SessionState.after sha256hex s e).kv later := by
  refine ⟨fun hkeeps later hlater => ((h.after hle hkeeps).listed.later hlater).indexCovers, ?_⟩
  intro hcovers token record hcall hread hcap hslide hash other expires hne he huser hlt
  by_contra hshort
  have hpos := renewalTtl_pos record e.now
  obtain ⟨expires₀, he₀, hlt₀⟩ := readRecord_eq_some.mp hread
  obtain ⟨hashes, hindex, -⟩ := (h.listed.later hle).indexCovers _ record
    ⟨get_eq_some.mpr ⟨expires₀, he₀, hlt₀⟩, hcap⟩
  have hafter : (SessionState.after sha256hex s e).kv =
      renewSession s.kv e.now (sha256hex token) record := by
    simp only [SessionState.after, hcall, Option.elim, runCall, getSession, hread,
      if_neg (not_lt.mpr hcap), if_pos hslide]
  -- when the renewed TTL has run out, the other session is live and the index is not there
  have hother : Live (SessionState.after sha256hex s e).kv (e.now + renewalTtl record e.now)
      hash other := by
    refine live_iff.mpr ⟨expires, ?_, by omega⟩
    rw [hafter, renewSession, hindex]
    change ((s.kv.put _ _ _).put _ _ _).entry _ = _
    rw [entry_put_of_ne (sessKey_ne_usessKey hash record.userId),
      entry_put_of_ne fun heq => hne (sessKey_injective heq), he]
  obtain ⟨hashes', hget, -⟩ := hcovers _ (by omega) hash other hother
  obtain ⟨expires', hentry, hexp⟩ := get_eq_some.mp hget
  rw [hafter, renewSession, hindex, huser] at hentry
  change ((s.kv.put _ _ _).put _ _ _).entry _ = _ at hentry
  rw [entry_put_self, Option.some.injEq, StoreEntry.mk.injEq] at hentry
  omega

/-- **The index covers the live sessions** in every run whose calls meet the condition; a next call
that does not meet it breaks this as time goes by. -/
theorem index_covers_sessions {s : SessionState}
    (h : ((sessionSystem sha256hex).restrict (KeepsIndex sha256hex)).Reachable s) :
    IndexCovers s.kv s.now ∧
      (∀ later, s.now ≤ later → ∀ hash record,
        ¬ Live (revokeAllForUser s.kv s.now record.userId) later hash record) ∧
      (∀ hash record, Live s.kv s.now hash record →
        ⟨hash, record.label, record.createdAt, record.lastSeen⟩ ∈
          (listSessionsForUser s.kv s.now record.userId).2) ∧
      ∀ e : SessionEvent, s.now ≤ e.now →
        (KeepsIndex sha256hex s e ↔
          ∀ later, e.now ≤ later → IndexCovers (SessionState.after sha256hex s e).kv later) := by
  have hgood := good_of_reachable h
  refine ⟨hgood.listed.indexCovers, fun later hle hash record => ?_, fun hash record hlive => ?_,
    fun e hle => hgood.keepsIndex_iff hle⟩
  · exact hgood.listed.not_live_revokeAllForUser hle hash record
  · exact hgood.listed.mem_listSessionsForUser hlive

theorem reachable_run (h : (sessionSystem sha256hex).Reachable s) (events : List SessionEvent)
    (hclock : (s.now :: events.map (·.now)).Pairwise (· ≤ ·)) :
    (sessionSystem sha256hex).Reachable (events.foldl (SessionState.after sha256hex) s) := by
  induction events generalizing s with
  | nil => exact h
  | cons e events ih =>
    obtain ⟨hle, hrest⟩ := List.pairwise_cons.mp hclock
    exact ih (h.step ⟨hle e.now (by simp), rfl⟩) hrest

theorem SessionState.Good.keepsIndex_of_far (h : s.Good) (hle : s.now ≤ e.now)
    (hfar : ∀ token record, e.call = some (.getSession token) →
      readRecord s.kv e.now (sha256hex token) = some record →
        SESSION_TTL_SEC ≤ lifetimeEndsAt record - e.now) : KeepsIndex sha256hex s e := by
  intro token record hcall hread _ _ hash other expires _ he _ _
  have hlong := hfar token record hcall hread
  have hbound := h.bounded.later hle hash other expires he
  rw [diesAt, renewalTtl]
  omega

end System

/-! ### Two runs -/

def firstToken : String := "BxQhLjtIVWJvfImWo7C9ytfk8f4LGCUyP0xZZnOAjZo"

def secondToken : String := "DihCXHaQqsTe-BIsRmB6lK7I4vwWMEpkfpiyzOYAGjQ"

def sampleHash (token : String) : String :=
  if token = firstToken then "d1626873473efa4d4dc8b74180f38cd9bcdbd2afd992b68cdb789d326ef48b90"
  else if token = secondToken then
    "4e4456343f5e8aced127da76d7356ff1e7fd4feccbfbee75c1b43cf0e6107ebf"
  else ""

/-- One user signs in with a token, on a day. -/
def signIn (token : String) (day : ℤ) : SessionEvent :=
  ⟨day * 86400, some (.createSession token ⟨"u1", ["drep"], some "drep1"⟩ none none)⟩

def useToken (token : String) (day : ℤ) : SessionEvent := ⟨day * 86400, some (.getSession token)⟩

private theorem keepsIndex_signIn (s : SessionState) (token : String) (day : ℤ) :
    KeepsIndex sampleHash s (signIn token day) := by
  intro t record hcall
  rw [signIn, Option.some.injEq] at hcall
  cases hcall

/-- A few days after both signed in, the first token is renewed. -/
theorem index_covers_sessions_renewed :
    ∃ s, ((sessionSystem sampleHash).restrict (KeepsIndex sampleHash)).Reachable s ∧
      s.now = 5 * 86400 ∧ IndexCovers s.kv s.now := by
  have h₀ : ((sessionSystem sampleHash).restrict (KeepsIndex sampleHash)).Reachable
      ⟨.empty, 0⟩ := .init rfl
  have hfirst := h₀.step (e := signIn firstToken 0) ⟨keepsIndex_signIn _ _ _, by decide, rfl⟩
  have hsecond := hfirst.step (e := signIn secondToken 3)
    ⟨keepsIndex_signIn _ _ _, by decide, rfl⟩
  have hrenew := hsecond.step (e := useToken firstToken 5)
    ⟨(good_of_reachable hsecond).keepsIndex_of_far (by decide) (by
      intro token record hcall hread
      obtain rfl : firstToken = token := by simpa [useToken] using hcall
      have hrecord : some record = some (newRecord 0 ⟨"u1", ["drep"], some "drep1"⟩ none none) :=
        hread.symm.trans (by decide +kernel)
      rw [Option.some.inj hrecord]
      decide), by decide, rfl⟩
  exact ⟨_, hrenew, rfl, (index_covers_sessions hrenew).1⟩

/-- The second session is live on day 90 and the index is gone: the renewal of the first on day
87 left three days. -/
theorem not_index_covers_sessions :
    ¬ ∀ s, (sessionSystem sampleHash).Reachable s → IndexCovers s.kv s.now := by
  intro h
  have hreach := @reachable_run sampleHash ⟨.empty, 0⟩ (.init rfl)
    [signIn firstToken 0, useToken firstToken 29, useToken firstToken 58, signIn secondToken 80,
      useToken firstToken 87, ⟨90 * 86400, none⟩] (by decide)
  obtain ⟨hashes, hget, -⟩ := h _ hreach (sampleHash secondToken)
    (newRecord (80 * 86400) ⟨"u1", ["drep"], some "drep1"⟩ none none)
    ⟨by decide +kernel, by decide +kernel⟩
  have hgone : some (KvValue.hashes hashes) = none := hget.symm.trans (by decide +kernel)
  cases hgone

end DrepTalk
