import DrepTalk.Auth.Session

/-!
# The index of a user's sessions

Logging out everywhere and the device list both go by the per-user index, so the index has to
be there and list every live session. Each record expires on its own, the index is shared and
expires too: a session is live until its record expires or it passes its cap (`diesAt`), and
what is needed is that the index of its user lists it and lasts at least as long (`Listed`).

Calls that only remove (`Shrinks`) keep this: an index loses the hashes of records that are not
there, and where it is written anew it is written for the full thirty days, which no record
outlasts (`Bounded`). A call that writes a record keeps it when the index written along with it
lasts long enough (`Listed.write`), as it does in `createSession`.
-/

namespace DrepTalk

open ExpiringStore

/-! ### Keys -/

theorem sessKey_injective {h h' : String} (heq : sessKey h = sessKey h') : h = h' :=
  (String.append_right_inj _).mp heq

theorem usessKey_injective {u u' : String} (heq : usessKey u = usessKey u') : u = u' :=
  (String.append_right_inj _).mp heq

theorem sessKey_ne_usessKey (h u : String) : sessKey h ≠ usessKey u := by
  intro heq
  have hhead := congrArg (fun s => s.toList.head?) heq
  simp [sessKey, usessKey] at hhead

/-! ### Live sessions -/

/-- The moment from which on a session is not live: its record has expired or it is past its
absolute cap. -/
def diesAt (record : SessionRecord) (expires : ℤ) : ℤ :=
  min expires (lifetimeEndsAt record + 1)

/-- The session under this hash is live: its record is there and not past its cap. -/
def Live (kv : SessionStore) (now : ℤ) (hash : String) (record : SessionRecord) : Prop :=
  kv.get now (sessKey hash) = some (.session record) ∧ now ≤ lifetimeEndsAt record

/-- Every live session is listed in the index of its user. -/
def IndexCovers (kv : SessionStore) (now : ℤ) : Prop :=
  ∀ hash record, Live kv now hash record →
    ∃ hashes, kv.get now (usessKey record.userId) = some (.hashes hashes) ∧ hash ∈ hashes

/-- Every session still to die is listed in an index that lasts as long as it does. -/
def Listed (kv : SessionStore) (now : ℤ) : Prop :=
  ∀ hash record expires, kv.entry (sessKey hash) = some ⟨.session record, expires⟩ →
    now < diesAt record expires →
      ∃ hashes expires', kv.entry (usessKey record.userId) = some ⟨.hashes hashes, expires'⟩ ∧
        hash ∈ hashes ∧ diesAt record expires ≤ expires'

/-- No record outlasts the full idle window. -/
def Bounded (kv : SessionStore) (now : ℤ) : Prop :=
  ∀ hash record expires, kv.entry (sessKey hash) = some ⟨.session record, expires⟩ →
    expires ≤ now + SESSION_TTL_SEC

theorem live_iff {kv : SessionStore} {now : ℤ} {hash : String} {record : SessionRecord} :
    Live kv now hash record ↔
      ∃ expires, kv.entry (sessKey hash) = some ⟨.session record, expires⟩ ∧
        now < diesAt record expires := by
  rw [Live, get_eq_some]
  constructor
  · rintro ⟨⟨expires, he, hlt⟩, hcap⟩
    exact ⟨expires, he, by rw [diesAt]; omega⟩
  · rintro ⟨expires, he, hlt⟩
    rw [diesAt] at hlt
    exact ⟨⟨expires, he, by omega⟩, by omega⟩

theorem Listed.indexCovers {kv : SessionStore} {now : ℤ} (h : Listed kv now) :
    IndexCovers kv now := by
  intro hash record hlive
  obtain ⟨expires, he, hlt⟩ := live_iff.mp hlive
  obtain ⟨hashes, expires', hindex, hmem, hle⟩ := h hash record expires he hlt
  exact ⟨hashes, get_eq_some.mpr ⟨expires', hindex, by omega⟩, hmem⟩

theorem Listed.later {kv : SessionStore} {now later : ℤ} (h : Listed kv now) (hle : now ≤ later) :
    Listed kv later :=
  fun hash record expires he hlt => h hash record expires he (by omega)

theorem Bounded.later {kv : SessionStore} {now later : ℤ} (h : Bounded kv now)
    (hle : now ≤ later) : Bounded kv later := by
  intro hash record expires he
  have hbound := h hash record expires he
  omega

theorem renewalTtl_le (record : SessionRecord) (now : ℤ) :
    renewalTtl record now ≤ SESSION_TTL_SEC := by
  rw [renewalTtl, SESSION_TTL_SEC]
  omega

theorem renewalTtl_pos (record : SessionRecord) (now : ℤ) : 0 < renewalTtl record now := by
  rw [renewalTtl]
  omega

theorem Listed.mem_readHashIndex {kv : SessionStore} {now : ℤ} (h : Listed kv now)
    {hash : String} {record : SessionRecord} (hlive : Live kv now hash record) :
    hash ∈ readHashIndex kv now record.userId := by
  obtain ⟨hashes, hget, hmem⟩ := h.indexCovers hash record hlive
  rwa [readHashIndex, readHashIndexByKey, hget]

/-! ### Calls that only remove -/

/-- Records only disappear, and an index loses only hashes whose record is not there, or is
written anew for the full idle window. -/
structure Shrinks (now : ℤ) (kv kv' : SessionStore) : Prop where
  sess : ∀ hash e, kv'.entry (sessKey hash) = some e → kv.entry (sessKey hash) = some e
  index : ∀ userId hash hashes expires record e,
    kv.entry (usessKey userId) = some ⟨.hashes hashes, expires⟩ → hash ∈ hashes →
      now < expires → kv'.entry (sessKey hash) = some ⟨.session record, e⟩ → now < e →
      ∃ hashes' expires', kv'.entry (usessKey userId) = some ⟨.hashes hashes', expires'⟩ ∧
        hash ∈ hashes' ∧ min expires (now + SESSION_TTL_SEC) ≤ expires'

namespace Shrinks

variable {now : ℤ} {kv kv' kv'' : SessionStore}

theorem refl (now : ℤ) (kv : SessionStore) : Shrinks now kv kv where
  sess _ _ h := h
  index _ _ hashes expires _ _ h hmem _ _ _ := ⟨hashes, expires, h, hmem, by omega⟩

theorem trans (h : Shrinks now kv kv') (h' : Shrinks now kv' kv'') : Shrinks now kv kv'' where
  sess hash e he := h.sess hash e (h'.sess hash e he)
  index userId hash hashes expires record e hindex hmem hlt he hpresent := by
    obtain ⟨hashes₁, expires₁, hindex₁, hmem₁, hle₁⟩ :=
      h.index userId hash hashes expires record e hindex hmem hlt (h'.sess hash _ he) hpresent
    have hlt₁ : now < expires₁ := by rw [SESSION_TTL_SEC] at hle₁; omega
    obtain ⟨hashes₂, expires₂, hindex₂, hmem₂, hle₂⟩ :=
      h'.index userId hash hashes₁ expires₁ record e hindex₁ hmem₁ hlt₁ he hpresent
    exact ⟨hashes₂, expires₂, hindex₂, hmem₂, by omega⟩

theorem listed (h : Shrinks now kv kv') (hlisted : Listed kv now) (hbound : Bounded kv now) :
    Listed kv' now := by
  intro hash record expires he hlt
  have hold := h.sess hash _ he
  obtain ⟨hashes, expires₁, hindex, hmem, hle⟩ := hlisted hash record expires hold hlt
  have hexp := hbound hash record expires hold
  have hdies : diesAt record expires ≤ expires := min_le_left _ _
  obtain ⟨hashes', expires', hindex', hmem', hle'⟩ :=
    h.index record.userId hash hashes expires₁ record expires hindex hmem (by omega) he (by omega)
  exact ⟨hashes', expires', hindex', hmem', by omega⟩

theorem bounded (h : Shrinks now kv kv') (hbound : Bounded kv now) : Bounded kv' now :=
  fun hash record expires he => hbound hash record expires (h.sess hash _ he)

end Shrinks

theorem shrinks_delete (kv : SessionStore) (now : ℤ) (hash : String) :
    Shrinks now kv (kv.delete (sessKey hash)) where
  sess _ _ h := (entry_of_delete h).2
  index userId _ hashes expires _ _ h hmem _ _ _ := by
    refine ⟨hashes, expires, ?_, hmem, by omega⟩
    rwa [entry_delete_of_ne (sessKey_ne_usessKey hash userId).symm]

theorem shrinks_prune {kv : SessionStore} {now : ℤ} {hash : String}
    (hgone : ∀ record e, kv.entry (sessKey hash) = some ⟨.session record, e⟩ → e ≤ now)
    (userId : String) :
    Shrinks now kv (pruneHashFromIndex kv now (usessKey userId) hash) := by
  have hother : ∀ key, key ≠ usessKey userId →
      (pruneHashFromIndex kv now (usessKey userId) hash).entry key = kv.entry key := by
    intro key hne
    rw [pruneHashFromIndex]
    split_ifs
    · exact entry_put_of_ne hne _ _
    · exact entry_delete_of_ne hne
  have hsess : ∀ h, (pruneHashFromIndex kv now (usessKey userId) hash).entry (sessKey h) =
      kv.entry (sessKey h) := fun h => hother _ (sessKey_ne_usessKey h userId)
  refine ⟨fun h e he => by rwa [hsess] at he, ?_⟩
  intro user h hashes expires record e hindex hmem hlt he hpresent
  rw [hsess] at he
  by_cases huser : user = userId
  · subst huser
    have hread : readHashIndexByKey kv now (usessKey user) = hashes := by
      rw [readHashIndexByKey, get_eq_some.mpr ⟨expires, hindex, hlt⟩]
    -- the hash of a record that is there is not the one pruned
    have hne : h ≠ hash := by
      rintro rfl
      have := hgone record e he
      omega
    have hpruned : h ∈ hashes.filter fun x => x != hash := by simp [hmem, hne]
    refine ⟨_, now + SESSION_TTL_SEC, ?_, hpruned, by omega⟩
    rw [pruneHashFromIndex, hread, if_pos (List.length_pos_of_mem hpruned)]
    exact entry_put_self _ _ _ _
  · refine ⟨hashes, expires, ?_, hmem, by omega⟩
    rwa [hother _ fun heq => huser (usessKey_injective heq)]

theorem shrinks_deleteSessionByHash (kv : SessionStore) (now : ℤ) (hash : String) :
    Shrinks now kv (deleteSessionByHash kv now hash) := by
  rw [deleteSessionByHash]
  rcases readRecord kv now hash with _ | record
  · exact shrinks_delete kv now hash
  · refine (shrinks_delete kv now hash).trans (shrinks_prune ?_ record.userId)
    intro record' e he
    rw [entry_delete_self] at he
    cases he

theorem readRecord_eq_some {kv : SessionStore} {now : ℤ} {hash : String} {record : SessionRecord} :
    readRecord kv now hash = some record ↔
      ∃ expires, kv.entry (sessKey hash) = some ⟨.session record, expires⟩ ∧ now < expires := by
  rw [← get_eq_some, readRecord]
  rcases kv.get now (sessKey hash) with _ | ⟨r | hashes⟩ <;> simp

theorem expired_of_readRecord {kv : SessionStore} {now : ℤ} {hash : String}
    (h : readRecord kv now hash = none) :
    ∀ record e, kv.entry (sessKey hash) = some ⟨.session record, e⟩ → e ≤ now := by
  intro record e he
  by_contra hlt
  rw [readRecord_eq_some.mpr ⟨e, he, by omega⟩] at h
  cases h

/-! ### The device list -/

theorem shrinks_listHashes (now : ℤ) (userId : String) (hashes : List String)
    (kv : SessionStore) : Shrinks now kv (listHashes now userId hashes kv).1 := by
  induction hashes generalizing kv with
  | nil => exact .refl now kv
  | cons hash hashes ih =>
    rw [listHashes]
    rcases hread : readRecord kv now hash with _ | record
    · -- the record is gone, so its hash may go too
      exact (shrinks_prune (expired_of_readRecord hread) userId).trans (ih _)
    · change Shrinks now kv (if now > lifetimeEndsAt record then _ else _ : _ × _).1
      split_ifs <;> exact ih kv

theorem readRecord_prune (kv : SessionStore) (now : ℤ) (userId hash h : String) :
    readRecord (pruneHashFromIndex kv now (usessKey userId) hash) now h = readRecord kv now h := by
  rw [readRecord, readRecord]
  congr 1
  refine get_congr now ?_
  rw [pruneHashFromIndex]
  split_ifs
  · exact entry_put_of_ne (sessKey_ne_usessKey h userId) _ _
  · exact entry_delete_of_ne (sessKey_ne_usessKey h userId)

theorem mem_listHashes {now : ℤ} {userId hash : String} {record : SessionRecord}
    (hcap : now ≤ lifetimeEndsAt record) {hashes : List String} (hmem : hash ∈ hashes)
    {kv : SessionStore} (hread : readRecord kv now hash = some record) :
    ⟨hash, record.label, record.createdAt, record.lastSeen⟩ ∈
      (listHashes now userId hashes kv).2 := by
  induction hashes generalizing kv with
  | nil => simp at hmem
  | cons h hashes ih =>
    rw [listHashes]
    rcases hread' : readRecord kv now h with _ | other
    · rcases List.mem_cons.mp hmem with rfl | hmem
      · rw [hread] at hread'
        cases hread'
      · exact ih hmem (by rwa [readRecord_prune])
    · rcases List.mem_cons.mp hmem with rfl | hmem
      · obtain rfl : record = other := Option.some.inj (hread.symm.trans hread')
        simp only [if_neg (not_lt.mpr hcap), List.mem_cons, true_or]
      · have hrest := ih hmem hread
        by_cases hother : now > lifetimeEndsAt other
        · simpa only [if_pos hother] using hrest
        · simpa only [if_neg hother] using List.mem_cons_of_mem _ hrest

/-! ### Revoking -/

theorem shrinks_revokeSessionForUser (kv : SessionStore) (now : ℤ) (userId sessionId : String) :
    Shrinks now kv (revokeSessionForUser kv now userId sessionId).1 := by
  rw [revokeSessionForUser]
  split_ifs
  · exact .refl now kv
  · rcases readRecord kv now sessionId with _ | record
    · exact .refl now kv
    · change Shrinks now kv (if record.userId ≠ userId then _ else _ : _ × Bool).1
      split_ifs
      · exact .refl now kv
      · exact shrinks_deleteSessionByHash kv now sessionId

theorem entry_deleteAll (hashes : List String) (kv : SessionStore) (key : String) :
    (hashes.foldl (fun kv h => kv.delete (sessKey h)) kv).entry key =
      if ∃ h ∈ hashes, key = sessKey h then none else kv.entry key := by
  induction hashes generalizing kv with
  | nil => simp
  | cons h hashes ih =>
    rw [List.foldl_cons, ih]
    by_cases hmem : ∃ h ∈ hashes, key = sessKey h
    · rw [if_pos hmem, if_pos (by simpa using Or.inr hmem)]
    · rw [if_neg hmem]
      by_cases hkey : key = sessKey h
      · rw [hkey, entry_delete_self, if_pos ⟨h, by simp, rfl⟩]
      · rw [entry_delete_of_ne hkey, if_neg]
        simpa [hkey] using hmem

theorem shrinks_deleteAll {kv : SessionStore} {now expires : ℤ} {userId : String}
    {hashes : List String}
    (hindex : kv.entry (usessKey userId) = some ⟨.hashes hashes, expires⟩) :
    Shrinks now kv ((hashes.foldl (fun kv h => kv.delete (sessKey h)) kv).delete
      (usessKey userId)) := by
  have hsess : ∀ hash, ((hashes.foldl (fun kv h => kv.delete (sessKey h)) kv).delete
      (usessKey userId)).entry (sessKey hash) =
        if ∃ h ∈ hashes, sessKey hash = sessKey h then none else kv.entry (sessKey hash) :=
    fun hash => (entry_delete_of_ne (sessKey_ne_usessKey hash userId)).trans
      (entry_deleteAll hashes kv _)
  constructor
  · intro hash e he
    rw [hsess] at he
    split_ifs at he
    exact he
  · intro user hash hashes' expires' record e hindex' hmem _ he _
    by_cases huser : user = userId
    · -- the user's own listed records are all deleted
      subst huser
      rw [hindex, Option.some.injEq, StoreEntry.mk.injEq, KvValue.hashes.injEq] at hindex'
      rw [hsess, if_pos ⟨hash, hindex'.1 ▸ hmem, rfl⟩] at he
      cases he
    · refine ⟨hashes', expires', ?_, hmem, by omega⟩
      rw [entry_delete_of_ne fun heq => huser (usessKey_injective heq), entry_deleteAll, if_neg,
        hindex']
      rintro ⟨h, -, heq⟩
      exact sessKey_ne_usessKey h user heq.symm

theorem shrinks_revokeAllForUser (kv : SessionStore) (now : ℤ) (userId : String) :
    Shrinks now kv (revokeAllForUser kv now userId) := by
  rw [revokeAllForUser]
  rcases hget : kv.get now (usessKey userId) with _ | ⟨_ | hashes⟩
  · exact .refl now kv
  · exact .refl now kv
  · obtain ⟨expires, hindex, -⟩ := get_eq_some.mp hget
    exact shrinks_deleteAll hindex

theorem Listed.not_live_revokeAllForUser {kv : SessionStore} {now : ℤ} (h : Listed kv now)
    {later : ℤ} (hle : now ≤ later) (hash : String) (record : SessionRecord) :
    ¬ Live (revokeAllForUser kv now record.userId) later hash record := by
  intro hlive
  obtain ⟨expires, he, hlt⟩ := live_iff.mp hlive
  have hold := (shrinks_revokeAllForUser kv now record.userId).sess hash _ he
  obtain ⟨hashes, expires', hindex, hmem, hdies⟩ := h hash record expires hold (by omega)
  rw [revokeAllForUser, get_eq_some.mpr ⟨expires', hindex, by omega⟩] at he
  rw [entry_delete_of_ne (sessKey_ne_usessKey hash record.userId), entry_deleteAll,
    if_pos ⟨hash, hmem, rfl⟩] at he
  cases he

theorem Listed.mem_listSessionsForUser {kv : SessionStore} {now : ℤ} (h : Listed kv now)
    {hash : String} {record : SessionRecord} (hlive : Live kv now hash record) :
    ⟨hash, record.label, record.createdAt, record.lastSeen⟩ ∈
      (listSessionsForUser kv now record.userId).2 := by
  refine (List.mem_insertionSort _).mpr (mem_listHashes hlive.2 (h.mem_readHashIndex hlive) ?_)
  rw [readRecord, hlive.1]

/-! ### Calls that write a record -/

/-- A record is written together with an index that lists it and every other live session of the
user, and lasts as long as they do. -/
theorem Listed.write {kv : SessionStore} {now : ℤ} (h : Listed kv now) {hash : String}
    {record : SessionRecord} {hashes : List String} {ttl indexTtl : ℤ} (hmem : hash ∈ hashes)
    (hlast : diesAt record (now + ttl) ≤ now + indexTtl)
    (hothers : ∀ hash' other expires, hash' ≠ hash →
      kv.entry (sessKey hash') = some ⟨.session other, expires⟩ → other.userId = record.userId →
        now < diesAt other expires → hash' ∈ hashes ∧ diesAt other expires ≤ now + indexTtl) :
    Listed ((kv.putFor now (sessKey hash) (.session record) ttl).putFor now
      (usessKey record.userId) (.hashes hashes) indexTtl) now := by
  intro hash' other expires he hlt
  rw [SessionStore.putFor, entry_put_of_ne (sessKey_ne_usessKey hash' record.userId)] at he
  have hindex : ∀ user, user ≠ record.userId →
      ((kv.putFor now (sessKey hash) (.session record) ttl).putFor now
        (usessKey record.userId) (.hashes hashes) indexTtl).entry (usessKey user) =
          kv.entry (usessKey user) := by
    intro user hne
    rw [SessionStore.putFor, entry_put_of_ne fun heq => hne (usessKey_injective heq),
      SessionStore.putFor, entry_put_of_ne (sessKey_ne_usessKey hash user).symm]
  rcases entry_of_put he with ⟨hkey, hnew⟩ | ⟨hkey, hold⟩
  · -- the record just written
    obtain rfl := sessKey_injective hkey
    rw [StoreEntry.mk.injEq, KvValue.session.injEq] at hnew
    obtain ⟨rfl, rfl⟩ := hnew
    exact ⟨hashes, now + indexTtl, entry_put_self _ _ _ _, hmem, hlast⟩
  · -- another one: of the same user, under the new index, or of another user, under the old one
    by_cases huser : other.userId = record.userId
    · have hne : hash' ≠ hash := fun heq => hkey (by rw [heq])
      obtain ⟨hmem', hle⟩ := hothers hash' other expires hne hold huser hlt
      exact ⟨hashes, now + indexTtl, by rw [huser]; exact entry_put_self _ _ _ _, hmem', hle⟩
    · obtain ⟨hashes', expires', hentry, hmem', hle⟩ := h hash' other expires hold hlt
      exact ⟨hashes', expires', by rw [hindex _ huser, hentry], hmem', hle⟩

theorem Bounded.write {kv : SessionStore} {now : ℤ} (h : Bounded kv now) (hash userId : String)
    (record : SessionRecord) (value : KvValue) (indexTtl : ℤ) {ttl : ℤ}
    (httl : ttl ≤ SESSION_TTL_SEC) :
    Bounded ((kv.putFor now (sessKey hash) (.session record) ttl).putFor now
      (usessKey userId) value indexTtl) now := by
  intro hash' other expires he
  rw [SessionStore.putFor, entry_put_of_ne (sessKey_ne_usessKey hash' userId)] at he
  rcases entry_of_put he with ⟨-, hnew⟩ | ⟨-, hold⟩
  · rw [StoreEntry.mk.injEq] at hnew
    omega
  · exact h hash' other expires hold

theorem Listed.createSession {kv : SessionStore} {now : ℤ} (h : Listed kv now)
    (hbound : Bounded kv now) (sha256hex : String → String) (token : String) (user : SessionUser)
    (lifetimeStart : Option ℤ) (label : Option String) :
    Listed (createSession sha256hex kv now token user lifetimeStart label) now := by
  have hdies : ∀ record expires, diesAt record expires ≤ expires := fun _ _ => min_le_left _ _
  refine @Listed.write kv now h _ (newRecord now user lifetimeStart label) _ _ _ (by simp) ?_ ?_
  · have httl := renewalTtl_le (newRecord now user lifetimeStart label) now
    have hlast := hdies (newRecord now user lifetimeStart label)
      (now + renewalTtl (newRecord now user lifetimeStart label) now)
    omega
  · intro hash' other expires hne he huser hlt
    have hlive : Live kv now hash' other := live_iff.mpr ⟨expires, he, hlt⟩
    have hlisted := h.mem_readHashIndex hlive
    rw [huser] at hlisted
    exact ⟨List.mem_append_left _ hlisted, le_trans (hdies _ _) (hbound hash' other expires he)⟩

end DrepTalk
