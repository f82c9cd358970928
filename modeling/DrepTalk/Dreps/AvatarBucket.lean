import DrepTalk.Dreps.Avatars

/-!
# The avatar bucket

The objects that stored images are served from, and the statements of the rows that name them:
`src/lib/dreps/avatarStore.ts`, with the logo rows of `src/lib/db/pools.ts` beside the rows of the
DReps. An object is found under the hash of its bytes, with one rendition of it under each of two
more prefixes; a row refers to it by `image_content_hash`.

**Listing.** The bucket answers in the order of its keys, a thousand at a time, and a page that is
not the last one comes with a cursor (`page`). The pages of a bucket that does not change are the
slices of one list (`objectsAfter_last`).

The site is one host (`SITE_ORIGIN`). What `new URL` makes of a text comes from outside.
-/

namespace DrepTalk

/-! ### Keys -/

inductive AvatarPrefix
  | avatars
  | og_avatars
  | avatar_thumbs
  deriving DecidableEq

/-- A key, by its prefix and what follows it. -/
@[ext]
structure AvatarKey where
  under : AvatarPrefix
  name : String
  deriving DecidableEq

def avatarKey (hash : String) : AvatarKey := ⟨.avatars, hash⟩

/-- `name.replace(/\.png$/, '')`. -/
def withoutPng (name : String) : String :=
  if ".png".toList.isSuffixOf name.toList then String.ofList (name.toList.take (name.length - 4))
  else name

def AvatarKey.hashOf (key : AvatarKey) : String :=
  match key.under with
  | .avatars | .avatar_thumbs => key.name
  | .og_avatars => withoutPng key.name

/-! ### Objects -/

/-- An object, with the time of its last put. -/
structure AvatarObject where
  key : AvatarKey
  uploaded : ℤ

abbrev AvatarBucket := KeyedTable fun o : AvatarObject => o.key

namespace AvatarBucket

variable {bucket : AvatarBucket} {key : AvatarKey} {o : AvatarObject} {now : ℤ}

def put (bucket : AvatarBucket) (key : AvatarKey) (now : ℤ) : AvatarBucket :=
  bucket.upsert ⟨key, now⟩ (fun o => { o with uploaded := now }) fun _ _ => rfl

def delete (bucket : AvatarBucket) (keys : List AvatarKey) : AvatarBucket :=
  bucket.deleteWhere fun o => keys.contains o.key

def Has (bucket : AvatarBucket) (key : AvatarKey) : Prop := ∃ o ∈ bucket.rows, o.key = key

instance decidableHas (bucket : AvatarBucket) (key : AvatarKey) : Decidable (bucket.Has key) :=
  inferInstanceAs (Decidable (∃ o ∈ bucket.rows, o.key = key))

/-- ... and it was put after the time. -/
def HasSince (bucket : AvatarBucket) (key : AvatarKey) (time : ℤ) : Prop :=
  ∃ o ∈ bucket.rows, o.key = key ∧ time < o.uploaded

instance decidableHasSince (bucket : AvatarBucket) (key : AvatarKey) (time : ℤ) :
    Decidable (bucket.HasSince key time) :=
  inferInstanceAs (Decidable (∃ o ∈ bucket.rows, o.key = key ∧ time < o.uploaded))

variable {time : ℤ} {keys : List AvatarKey}

theorem HasSince.has (h : bucket.HasSince key time) : bucket.Has key :=
  let ⟨o, ho, hkey, _⟩ := h
  ⟨o, ho, hkey⟩

theorem mem_put : o ∈ (bucket.put key now).rows ↔
    (o ∈ bucket.rows ∧ o.key ≠ key) ∨ o = ⟨key, now⟩ := by
  have hmem : o ∈ (bucket.put key now).rows ↔ (o ∈ bucket.rows ∧ o.key ≠ key) ∨
      (∃ o₀ ∈ bucket.rows, o₀.key = key ∧ o = ⟨o₀.key, now⟩) ∨
        o = ⟨key, now⟩ ∧ key ∉ bucket.rows.map (·.key) :=
    @KeyedTable.mem_upsert _ _ _ o _ bucket ⟨key, now⟩ (fun o => { o with uploaded := now })
      fun _ _ => rfl
  rw [hmem]
  constructor
  · rintro (hmem | ⟨o₀, -, hkey, rfl⟩ | ⟨rfl, -⟩)
    · exact .inl hmem
    · exact .inr (congrArg (AvatarObject.mk · now) hkey)
    · exact .inr rfl
  · rintro (hmem | rfl)
    · exact .inl hmem
    · by_cases htaken : key ∈ bucket.rows.map (·.key)
      · obtain ⟨o₀, hmem, hkey⟩ := List.mem_map.mp htaken
        exact .inr (.inl ⟨o₀, hmem, hkey, congrArg (AvatarObject.mk · now) hkey.symm⟩)
      · exact .inr (.inr ⟨rfl, htaken⟩)

theorem mem_delete : o ∈ (bucket.delete keys).rows ↔ o ∈ bucket.rows ∧ o.key ∉ keys := by
  rw [delete, KeyedTable.deleteWhere, Table.mem_deleteWhere, List.contains_eq_mem,
    decide_eq_false_iff_not]

/-- Every object is still there, and not older. -/
def Renews (bucket bucket' : AvatarBucket) : Prop :=
  ∀ o ∈ bucket.rows, ∃ o' ∈ bucket'.rows, o'.key = o.key ∧ o.uploaded ≤ o'.uploaded

variable {bucket' : AvatarBucket} {other : AvatarKey} {under : AvatarPrefix}
  {cursor : Option String}

theorem Renews.hasSince (h : bucket.Renews bucket') (hhas : bucket.HasSince key time) :
    bucket'.HasSince key time := by
  obtain ⟨o, ho, hkey, htime⟩ := hhas
  obtain ⟨o', ho', hkey', hle⟩ := h o ho
  exact ⟨o', ho', hkey'.trans hkey, htime.trans_le hle⟩

theorem Renews.has (h : bucket.Renews bucket') (hhas : bucket.Has key) : bucket'.Has key := by
  obtain ⟨o, ho, hkey⟩ := hhas
  obtain ⟨o', ho', hkey', -⟩ := h o ho
  exact ⟨o', ho', hkey'.trans hkey⟩

theorem has_put : (bucket.put key now).Has other ↔
    bucket.Has other ∨ other = key := by
  constructor
  · rintro ⟨o, ho, rfl⟩
    rcases mem_put.mp ho with ⟨ho, -⟩ | rfl
    · exact .inl ⟨o, ho, rfl⟩
    · exact .inr rfl
  · intro h
    by_cases hkey : other = key
    · exact ⟨⟨key, now⟩, mem_put.mpr (.inr rfl), hkey.symm⟩
    · obtain ⟨o, ho, rfl⟩ := h.resolve_right hkey
      exact ⟨o, mem_put.mpr (.inl ⟨ho, hkey⟩), rfl⟩

theorem hasSince_put_self (h : time < now) : (bucket.put key now).HasSince key time :=
  ⟨⟨key, now⟩, mem_put.mpr (.inr rfl), rfl, h⟩

theorem hasSince_put (h : time < now) (hhas : bucket.HasSince other time) :
    (bucket.put key now).HasSince other time := by
  by_cases hkey : other = key
  · exact hkey ▸ hasSince_put_self h
  · obtain ⟨o, ho, rfl, htime⟩ := hhas
    exact ⟨o, mem_put.mpr (.inl ⟨ho, hkey⟩), rfl, htime⟩

theorem has_delete : (bucket.delete keys).Has key ↔
    bucket.Has key ∧ key ∉ keys := by
  constructor
  · rintro ⟨o, ho, rfl⟩
    obtain ⟨ho, hkeys⟩ := mem_delete.mp ho
    exact ⟨⟨o, ho, rfl⟩, hkeys⟩
  · rintro ⟨⟨o, ho, rfl⟩, hkeys⟩
    exact ⟨o, mem_delete.mpr ⟨ho, hkeys⟩, rfl⟩

theorem hasSince_delete (hkeys : key ∉ keys) (h : bucket.HasSince key time) :
    (bucket.delete keys).HasSince key time := by
  obtain ⟨o, ho, rfl, htime⟩ := h
  exact ⟨o, mem_delete.mpr ⟨ho, hkeys⟩, rfl, htime⟩

/-! ### Pages -/

def LIST_PAGE : ℕ := 1000

def nameLe (a b : AvatarObject) : Prop := a.key.name ≤ b.key.name

instance decidableNameLe : DecidableRel nameLe := fun a b =>
  inferInstanceAs (Decidable (a.key.name ≤ b.key.name))

instance totalNameLe : Std.Total nameLe := ⟨fun a b => le_total a.key.name b.key.name⟩

instance isTransNameLe : IsTrans AvatarObject nameLe :=
  ⟨fun a b c => le_trans (a := a.key.name) (b := b.key.name) (c := c.key.name)⟩

def behind (cursor : Option String) (o : AvatarObject) : Bool :=
  cursor.all fun last => decide (last < o.key.name)

/-- The objects under a prefix that are behind a cursor, in their order. -/
def objectsAfter (bucket : AvatarBucket) (under : AvatarPrefix) (cursor : Option String) :
    List AvatarObject :=
  (bucket.rows.insertionSort nameLe).filter fun o => o.key.under == under && behind cursor o

/-- `bucket.list`: a page, and the cursor behind it if there is more. -/
def page (bucket : AvatarBucket) (under : AvatarPrefix) (cursor : Option String) :
    List AvatarObject × Option String :=
  let objects := bucket.objectsAfter under cursor
  (objects.take LIST_PAGE,
    if LIST_PAGE < objects.length then
      (objects.take LIST_PAGE).getLast?.map fun o => o.key.name
    else none)

theorem mem_objectsAfter :
    o ∈ bucket.objectsAfter under cursor ↔
      o ∈ bucket.rows ∧ o.key.under = under ∧ behind cursor o = true := by
  rw [objectsAfter, List.mem_filter, List.mem_insertionSort, Bool.and_eq_true, beq_iff_eq]

theorem pairwise_objectsAfter (bucket : AvatarBucket) (under : AvatarPrefix)
    (cursor : Option String) :
    (bucket.objectsAfter under cursor).Pairwise fun a b => a.key.name < b.key.name := by
  have hnodup : (bucket.rows.insertionSort nameLe).Pairwise fun a b => a.key ≠ b.key := by
    have hkeys := ((List.perm_insertionSort nameLe bucket.rows).map (·.key)).nodup_iff.mpr
      bucket.unique
    exact List.pairwise_map.mp hkeys
  have hsorted : (bucket.rows.insertionSort nameLe).Pairwise nameLe :=
    List.pairwise_insertionSort nameLe bucket.rows
  have hboth := (hsorted.and hnodup).filter
    fun o => o.key.under == under && behind cursor o
  refine hboth.imp_of_mem fun {a b} ha hb hab => lt_of_le_of_ne hab.1 fun hname => hab.2 ?_
  have hunder : a.key.under = b.key.under :=
    (mem_objectsAfter.mp ha).2.1.trans (mem_objectsAfter.mp hb).2.1.symm
  exact AvatarKey.ext hunder hname

/-- **The pages** of a bucket that does not change: behind the last object of a page are the
objects that the page has left. -/
theorem objectsAfter_last {last : String} (hpage : (bucket.page under cursor).2 = some last) :
    bucket.objectsAfter under (some last) =
      (bucket.objectsAfter under cursor).drop LIST_PAGE := by
  rw [page] at hpage
  split_ifs at hpage
  obtain ⟨o, hlast, rfl⟩ := Option.map_eq_some_iff.mp hpage
  have hmem := (List.take_sublist _ _).subset (List.mem_of_getLast? hlast)
  have hcursor : behind cursor o = true := (mem_objectsAfter.mp hmem).2.2
  -- what is behind the object is behind the cursor
  have hbehind : ∀ o' : AvatarObject, (behind (some o.key.name) o' && behind cursor o') =
      behind (some o.key.name) o' := by
    intro o'
    rcases cursor with _ | c
    · exact Bool.and_true _
    · have hlt : c < o.key.name := of_decide_eq_true hcursor
      refine Bool.and_eq_left_iff_imp.mpr fun h => ?_
      exact decide_eq_true (hlt.trans (of_decide_eq_true h))
  rw [← filter_behind_take (bucket.pairwise_objectsAfter under cursor) hlast, objectsAfter,
    objectsAfter, List.filter_filter]
  refine List.filter_congr fun o' _ => ?_
  rw [← hbehind o', Bool.and_left_comm]
  rfl

end AvatarBucket

end DrepTalk
