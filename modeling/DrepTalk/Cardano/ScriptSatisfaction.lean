import DrepTalk.Cardano.NativeScript
import Mathlib.Data.List.Duplicate
import Mathlib.Data.Rat.Floor

/-!
# Who satisfies a native script

`src/lib/cardano/nativeScript.ts` goes through a script in two ways: for the keys that may sign, and
for whether enough have. The co-signing flow filters witnesses with the first and decides on the
submission with the second.

**Agreement.** Of a script that the parser accepts, satisfaction depends on the collected keys only,
more signers never undo it, and all the collected keys together reach it, unless some part of the
script cannot be satisfied at all (`isNativeScriptSatisfied_of_parse`).

**Progress.** For a flat script the progress view shows signed leaves beside a threshold. The leaves
are a set of hashes in lower case, the threshold counts the entries of the list as they stand. The
two agree for every set of signers if and only if the entries are in lower case and none is listed
twice, or the threshold is one that makes no difference (`satisfactionProgress_agrees_iff`).
-/

namespace DrepTalk.Cardano

/-! ### Induction over scripts -/

@[elab_as_elim]
theorem NativeScript.parts_induction {P : NativeScript → Prop} (sig : ∀ keyHash, P (.sig keyHash))
    (all : ∀ scripts, (∀ script ∈ scripts, P script) → P (.all scripts))
    (any : ∀ scripts, (∀ script ∈ scripts, P script) → P (.any scripts))
    (atLeast : ∀ required scripts, (∀ script ∈ scripts, P script) → P (.atLeast required scripts))
    (before : ∀ slot, P (.before slot)) (after : ∀ slot, P (.after slot)) (s : NativeScript) :
    P s :=
  @NativeScript.rec P (fun scripts => ∀ script ∈ scripts, P script) sig all any atLeast before after
    nofun
    (fun _ _ hscript hscripts => List.forall_mem_cons.mpr ⟨hscript, hscripts⟩) s

/-! ### The two recursions -/

variable {lc : LowerCase} {S T : Finset Text}

theorem satisfiedScripts_eq (scripts : List NativeScript) (S : Finset Text) :
    satisfiedScripts scripts S = scripts.map fun script => isNativeScriptSatisfied script S := by
  induction scripts with
  | nil => rfl
  | cons script scripts ih => rw [satisfiedScripts, ih, List.map_cons]

variable {scripts : List NativeScript}

theorem satisfiedScripts_congr
    (h : ∀ script ∈ scripts, isNativeScriptSatisfied script S = isNativeScriptSatisfied script T) :
    satisfiedScripts scripts S = satisfiedScripts scripts T := by
  rw [satisfiedScripts_eq, satisfiedScripts_eq, List.map_congr_left h]

theorem satisfied_sig {keyHash : Text} :
    isNativeScriptSatisfied (.sig keyHash) S = true ↔ keyHash ∈ S := by
  rw [isNativeScriptSatisfied, decide_eq_true_eq]

theorem satisfied_all :
    isNativeScriptSatisfied (.all scripts) S = true ↔
      ∀ script ∈ scripts, isNativeScriptSatisfied script S = true := by
  rw [isNativeScriptSatisfied, satisfiedScripts_eq, List.all_map, List.all_eq_true]
  rfl

theorem satisfied_any :
    isNativeScriptSatisfied (.any scripts) S = true ↔
      ∃ script ∈ scripts, isNativeScriptSatisfied script S = true := by
  rw [isNativeScriptSatisfied, satisfiedScripts_eq, List.any_map, List.any_eq_true]
  rfl

theorem satisfied_atLeast {required : JsNumber} :
    isNativeScriptSatisfied (.atLeast required scripts) S =
      required.reachedBy (scripts.countP fun script => isNativeScriptSatisfied script S) := by
  rw [isNativeScriptSatisfied, satisfiedScripts_eq, ← List.countP_eq_length_filter, List.countP_map]
  rfl

mutual

theorem collectSigKeyHashes_eq (s : NativeScript) (acc : Finset Text) :
    collectSigKeyHashes lc s acc = acc ∪ collectSigKeyHashes lc s ∅ := by
  cases s with
  | sig keyHash =>
    rw [collectSigKeyHashes, collectSigKeyHashes, Finset.union_insert, Finset.union_empty]
  | all scripts | any scripts | atLeast _ scripts => exact collectFrom_eq scripts acc
  | before slot | after slot => exact (Finset.union_empty acc).symm

theorem collectFrom_eq (scripts : List NativeScript) (acc : Finset Text) :
    collectFrom lc scripts acc = acc ∪ collectFrom lc scripts ∅ := by
  cases scripts with
  | nil => exact (Finset.union_empty acc).symm
  | cons script scripts =>
    rw [collectFrom, collectFrom_eq scripts, collectSigKeyHashes_eq script acc, collectFrom,
      collectFrom_eq scripts (collectSigKeyHashes lc script ∅), Finset.union_assoc]

end

theorem mem_collectFrom {k : Text} :
    k ∈ collectFrom lc scripts ∅ ↔ ∃ script ∈ scripts, k ∈ collectSigKeyHashes lc script ∅ := by
  induction scripts with
  | nil => simp [collectFrom]
  | cons script scripts ih =>
    rw [collectFrom, collectFrom_eq, Finset.mem_union, ih, List.exists_mem_cons_iff]

theorem collect_subset_iff : collectFrom lc scripts ∅ ⊆ S ↔
    ∀ script ∈ scripts, collectSigKeyHashes lc script ∅ ⊆ S := by
  refine ⟨fun h script hmem k hk => h (mem_collectFrom.mpr ⟨script, hmem, hk⟩), fun h k hk => ?_⟩
  obtain ⟨script, hmem, hk⟩ := mem_collectFrom.mp hk
  exact h script hmem hk

theorem allParsed_iff :
    AllParsed scripts ↔ ∀ script ∈ scripts, script.Parsed := by
  induction scripts with
  | nil => simp [AllParsed]
  | cons script scripts ih => rw [AllParsed, ih, List.forall_mem_cons]

/-! ### Membership and satisfaction -/

mutual

/-- Whether some part of a script cannot be satisfied by anyone: an alternative without
alternatives, or a threshold above the number of scripts it counts. -/
def NativeScript.Blocked : NativeScript → Prop
  | .sig _ | .before _ | .after _ => False
  | .all scripts => SomeBlocked scripts
  | .any scripts => scripts = [] ∨ SomeBlocked scripts
  | .atLeast required scripts =>
    (∃ q : ℚ, required = .finite q ∧ scripts.length < q) ∨ SomeBlocked scripts

def SomeBlocked : List NativeScript → Prop
  | [] => False
  | script :: scripts => script.Blocked ∨ SomeBlocked scripts

end

theorem someBlocked_iff :
    SomeBlocked scripts ↔ ∃ script ∈ scripts, script.Blocked := by
  induction scripts with
  | nil => simp [SomeBlocked]
  | cons script scripts ih => rw [SomeBlocked, ih, List.exists_mem_cons_iff]

variable {s : NativeScript}

theorem satisfied_congr (hparsed : s.Parsed) (h : ∀ k ∈ collectSigKeyHashes lc s ∅, k ∈ S ↔ k ∈ T) :
    isNativeScriptSatisfied s S = isNativeScriptSatisfied s T := by
  induction s using NativeScript.parts_induction with
  | sig keyHash =>
    have hk : keyHash ∈ collectSigKeyHashes lc (.sig keyHash) ∅ := by
      rw [collectSigKeyHashes, toLowerCase_of_isKeyHashHex lc hparsed]
      exact Finset.mem_insert_self ..
    rw [Bool.eq_iff_iff, satisfied_sig, satisfied_sig]
    exact h keyHash hk
  | all scripts ih | any scripts ih =>
    rw [isNativeScriptSatisfied, isNativeScriptSatisfied, satisfiedScripts_congr fun script hmem =>
      ih script hmem (allParsed_iff.mp hparsed script hmem) fun k hk =>
        h k (mem_collectFrom.mpr ⟨script, hmem, hk⟩)]
  | atLeast required scripts ih =>
    rw [isNativeScriptSatisfied, isNativeScriptSatisfied, satisfiedScripts_congr fun script hmem =>
      ih script hmem (allParsed_iff.mp hparsed.2 script hmem) fun k hk =>
        h k (mem_collectFrom.mpr ⟨script, hmem, hk⟩)]
  | before slot | after slot => rfl

theorem satisfied_mono (hsub : S ⊆ T) (h : isNativeScriptSatisfied s S = true) :
    isNativeScriptSatisfied s T = true := by
  induction s using NativeScript.parts_induction with
  | sig keyHash => exact satisfied_sig.mpr (hsub (satisfied_sig.mp h))
  | all scripts ih =>
    exact satisfied_all.mpr fun script hmem => ih script hmem (satisfied_all.mp h script hmem)
  | any scripts ih =>
    obtain ⟨script, hmem, hscript⟩ := satisfied_any.mp h
    exact satisfied_any.mpr ⟨script, hmem, ih script hmem hscript⟩
  | atLeast required scripts ih =>
    rw [satisfied_atLeast] at h ⊢
    exact JsNumber.reachedBy_mono (List.countP_mono_left ih) h
  | before slot | after slot => rfl

theorem satisfied_of_not_blocked (hparsed : s.Parsed) (hsub : collectSigKeyHashes lc s ∅ ⊆ S)
    (hopen : ¬s.Blocked) :
    isNativeScriptSatisfied s S = true := by
  induction s using NativeScript.parts_induction with
  | sig keyHash =>
    rw [collectSigKeyHashes, toLowerCase_of_isKeyHashHex lc hparsed] at hsub
    exact satisfied_sig.mpr (hsub (Finset.mem_insert_self ..))
  | all scripts ih =>
    have hopen' : ∀ script ∈ scripts, ¬script.Blocked := by
      simpa [NativeScript.Blocked, someBlocked_iff] using hopen
    exact satisfied_all.mpr fun script hmem => ih script hmem (allParsed_iff.mp hparsed script hmem)
      (collect_subset_iff.mp hsub script hmem) (hopen' script hmem)
  | any scripts ih =>
    rw [NativeScript.Blocked, not_or] at hopen
    obtain ⟨script, hmem⟩ := List.exists_mem_of_ne_nil scripts hopen.1
    exact satisfied_any.mpr ⟨script, hmem, ih script hmem (allParsed_iff.mp hparsed script hmem)
      (collect_subset_iff.mp hsub script hmem)
      fun hb => hopen.2 (someBlocked_iff.mpr ⟨script, hmem, hb⟩)⟩
  | atLeast required scripts ih =>
    rw [NativeScript.Blocked, not_or] at hopen
    have hall : ∀ script ∈ scripts, isNativeScriptSatisfied script S = true := fun script hmem =>
      ih script hmem (allParsed_iff.mp hparsed.2 script hmem)
        (collect_subset_iff.mp hsub script hmem)
        fun hb => hopen.2 (someBlocked_iff.mpr ⟨script, hmem, hb⟩)
    rw [satisfied_atLeast, List.countP_eq_length.mpr hall]
    cases required with
    | finite q =>
      rw [JsNumber.reachedBy, decide_eq_true_eq]
      exact le_of_not_gt fun hlt => hopen.1 ⟨q, rfl, hlt⟩
    | infinite negative | nan => exact absurd hparsed.1 (by simp [JsNumber.isInteger])
  | before slot | after slot => rfl

/-- **Membership and satisfaction agree** on a script that the parser accepts. -/
theorem isNativeScriptSatisfied_of_parse {value : ScriptJson} {s : NativeScript}
    (h : parseNativeScriptJson lc value = some s) (S T : Finset Text) :
    isNativeScriptSatisfied s S = isNativeScriptSatisfied s (S ∩ collectSigKeyHashes lc s ∅) ∧
      (S ⊆ T → isNativeScriptSatisfied s S = true → isNativeScriptSatisfied s T = true) ∧
      (collectSigKeyHashes lc s ∅ ⊆ S → ¬s.Blocked → isNativeScriptSatisfied s S = true) := by
  have hparsed := parsed_of_parse value h
  have hsame : ∀ k ∈ collectSigKeyHashes lc s ∅,
      k ∈ S ↔ k ∈ S ∩ collectSigKeyHashes lc s ∅ := by
    intro k hk
    rw [Finset.mem_inter, and_iff_left hk]
  exact ⟨satisfied_congr hparsed hsame, satisfied_mono, satisfied_of_not_blocked hparsed⟩

/-- One signer out of one, the key hash written in capitals. -/
def sampleAny : ScriptJson :=
  .object [("type", .string "any"), ("scripts", .array [.object [("type", .string "sig"),
    ("keyHash", .string "AAAAAAAAAAAAAAAAAAAAAAAAAAAAAAAAAAAAAAAAAAAAAAAAAAAAAAAA")]])]

theorem isNativeScriptSatisfied_of_parse_sample :
    isNativeScriptSatisfied (.any [.sig (List.replicate 56 'a')])
      {List.replicate 56 'a'} = true := by
  have hparse : parseNativeScriptJson asciiLower sampleAny =
      some (.any [.sig (List.replicate 56 'a')]) := by rfl
  refine (isNativeScriptSatisfied_of_parse hparse {List.replicate 56 'a'} ∅).2.2 ?_ ?_
  · decide
  · simp [NativeScript.Blocked, SomeBlocked]

/-! ### Progress -/

/-- The key hashes of a list of signatures. -/
def sigEntries (scripts : List NativeScript) : List Text :=
  scripts.filterMap fun
    | .sig keyHash => some keyHash
    | _ => none

/-- Whether two countings of a list of key hashes agree on a threshold, whoever has signed: of the
entries as they stand, and of the different hashes in lower case. -/
def CountsAgree (lc : LowerCase) (threshold : JsNumber) (entries : List Text) : Prop :=
  match threshold with
  | .finite q => q ≤ 0 ∨ entries.length < q ∨
    (∀ k ∈ entries, lc.toLowerCase k = k) ∧ (q ≤ 1 ∨ entries.Nodup)
  | .infinite _ | .nan => True

theorem eq_map_sigEntries (h : scripts.all NativeScript.isSig = true) :
    scripts = (sigEntries scripts).map .sig := by
  induction scripts with
  | nil => rfl
  | cons script scripts ih =>
    rw [List.all_cons, Bool.and_eq_true] at h
    cases script with
    | sig keyHash =>
      change _ = NativeScript.sig keyHash :: (sigEntries scripts).map .sig
      rw [← ih h.2]
    | all _ | any _ | atLeast _ _ | before _ | after _ => exact absurd h.1 Bool.false_ne_true

theorem collect_sigs (entries : List Text) :
    collectFrom lc (entries.map .sig) ∅ = (entries.map lc.toLowerCase).toFinset := by
  ext k
  simp [mem_collectFrom, collectSigKeyHashes, eq_comm]

theorem countP_sigs (entries : List Text) (S : Finset Text) :
    (entries.map NativeScript.sig).countP (fun script => isNativeScriptSatisfied script S) =
      entries.countP fun k => k ∈ S := by
  rw [List.countP_map]
  rfl

variable {m : ℕ} {threshold : JsNumber}

theorem exists_signers {entries given : List Text} (hsub : given.Sublist entries)
    (hgiven : given.length ≤ m) (hm : m ≤ entries.length) :
    ∃ chosen : List Text, given.Sublist chosen ∧ chosen.length = m ∧
      m ≤ entries.countP fun k => k ∈ chosen.toFinset := by
  obtain ⟨others, hperm⟩ := hsub.exists_perm_append
  have hlen := hperm.length_eq
  rw [List.length_append] at hlen
  have htake : (others.take (m - given.length)).length = m - given.length := by
    rw [List.length_take]
    omega
  refine ⟨given ++ others.take (m - given.length), List.sublist_append_left _ _, ?_, ?_⟩
  · rw [List.length_append, htake]
    omega
  · set chosen := given ++ others.take (m - given.length) with hchosen
    have hlen' : chosen.length = m := by
      rw [hchosen, List.length_append, htake]
      omega
    have hall : chosen.countP (fun k => k ∈ chosen.toFinset) = chosen.length :=
      List.countP_eq_length.mpr fun k hk => by simpa using hk
    have hsplit : given ++ others = chosen ++ others.drop (m - given.length) := by
      rw [hchosen, List.append_assoc, List.take_append_drop]
    calc m = chosen.countP fun k => k ∈ chosen.toFinset := by rw [hall, hlen']
      _ ≤ (given ++ others).countP fun k => k ∈ chosen.toFinset := by
          rw [hsplit]
          exact (List.sublist_append_left chosen _).countP_le
      _ = entries.countP fun k => k ∈ chosen.toFinset := (hperm.countP_eq _).symm

section Counts

variable {entries : List Text}

/-- The signed hashes in lower case, each counted once. -/
def signedHashes (lc : LowerCase) (entries : List Text) (signers : Finset Text) : Finset Text :=
  (entries.map lc.toLowerCase).toFinset.filter fun k => k ∈ signers

theorem signedHashes_subset : signedHashes lc entries S ⊆ S :=
  fun _ hk => (Finset.mem_filter.mp hk).2

theorem card_signedHashes_le : (signedHashes lc entries S).card ≤ entries.length := by
  calc (signedHashes lc entries S).card ≤ (entries.map lc.toLowerCase).toFinset.card :=
        Finset.card_filter_le _ _
    _ ≤ (entries.map lc.toLowerCase).length := List.toFinset_card_le _
    _ = entries.length := List.length_map _

theorem signedHashes_of_lower (hlower : ∀ k ∈ entries, lc.toLowerCase k = k) :
    signedHashes lc entries S = (entries.filter fun k => k ∈ S).toFinset := by
  have hmap : entries.map lc.toLowerCase = entries := by
    conv_rhs => rw [← List.map_id entries]
    exact List.map_congr_left hlower
  rw [signedHashes, hmap, List.toFinset_filter]
  simp

theorem card_signedHashes_pos (hlower : ∀ k ∈ entries, lc.toLowerCase k = k) :
    0 < (signedHashes lc entries S).card ↔ 0 < entries.countP fun k => k ∈ S := by
  rw [signedHashes_of_lower hlower, Finset.card_pos, List.toFinset_nonempty_iff,
    List.countP_pos_iff, Ne, List.filter_eq_nil_iff]
  simp

theorem exists_uncounted {k : Text} (hk : k ∈ entries) (hcapital : lc.toLowerCase k ≠ k)
    (hpos : 1 ≤ m) (hm : m ≤ entries.length) :
    ∃ S : Finset Text, m ≤ (entries.countP fun k => k ∈ S) ∧
      (signedHashes lc entries S).card < m := by
  obtain ⟨chosen, hsub, hlen, hcount⟩ :=
    exists_signers (List.singleton_sublist.mpr hk) (by simpa using hpos) hm
  refine ⟨chosen.toFinset, hcount, ?_⟩
  have hchosen : k ∈ chosen.toFinset := List.mem_toFinset.mpr (hsub.subset List.mem_cons_self)
  have hnot : k ∉ signedHashes lc entries chosen.toFinset := by
    intro hmem
    obtain ⟨k', -, hk'⟩ := List.mem_map.mp (List.mem_toFinset.mp (Finset.mem_filter.mp hmem).1)
    exact hcapital (by rw [← hk', lc.idem])
  calc (signedHashes lc entries chosen.toFinset).card < chosen.toFinset.card :=
        Finset.card_lt_card ⟨signedHashes_subset, fun h => hnot (h hchosen)⟩
    _ ≤ chosen.length := List.toFinset_card_le _
    _ = m := hlen

theorem exists_counted_once (hrepeat : ¬entries.Nodup) (hpos : 2 ≤ m) (hm : m ≤ entries.length) :
    ∃ S : Finset Text, m ≤ (entries.countP fun k => k ∈ S) ∧
      (signedHashes lc entries S).card < m := by
  obtain ⟨k, hk⟩ := List.exists_duplicate_iff_not_nodup.mpr hrepeat
  obtain ⟨chosen, hsub, hlen, hcount⟩ :=
    exists_signers (List.duplicate_iff_sublist.mp hk) (by simpa using hpos) hm
  refine ⟨chosen.toFinset, hcount, ?_⟩
  have hrepeat' : ¬chosen.Nodup := fun h =>
    List.exists_duplicate_iff_not_nodup.mp ⟨k, List.duplicate_iff_sublist.mpr hsub⟩ h
  have hlt : chosen.toFinset.card < chosen.length := by
    refine lt_of_le_of_ne (List.toFinset_card_le _) fun heq => hrepeat' ?_
    exact Multiset.coe_nodup.mp (Multiset.toFinset_card_eq_card_iff_nodup.mp heq)
  calc (signedHashes lc entries chosen.toFinset).card ≤ chosen.toFinset.card :=
        Finset.card_le_card signedHashes_subset
    _ < chosen.length := hlt
    _ = m := hlen

theorem countsAgree_iff :
    (∀ S : Finset Text, threshold.reachedBy (entries.countP fun k => k ∈ S) = true ↔
      threshold.reachedBy (signedHashes lc entries S).card = true) ↔
      CountsAgree lc threshold entries := by
  cases threshold with
  | infinite negative | nan => exact iff_of_true (fun S => Iff.rfl) trivial
  | finite q =>
    simp only [JsNumber.reachedBy, decide_eq_true_eq]
    constructor
    · intro h
      by_contra hnot
      simp only [CountsAgree, not_or, not_le, not_lt, not_and_or, not_forall] at hnot
      obtain ⟨hpos, hle, hbad⟩ := hnot
      -- the least count that reaches the threshold
      have hm : ⌈q⌉₊ ≤ entries.length := Nat.ceil_le.mpr hle
      have hfail : ¬∃ S : Finset Text, ⌈q⌉₊ ≤ (entries.countP fun k => k ∈ S) ∧
          (signedHashes lc entries S).card < ⌈q⌉₊ := by
        rintro ⟨S, hcount, hcard⟩
        exact absurd ((h S).mp (Nat.ceil_le.mp hcount)) (not_le.mpr (Nat.lt_ceil.mp hcard))
      rcases hbad with ⟨k, hk, hcapital⟩ | ⟨hone, hrepeat⟩
      · exact hfail (exists_uncounted hk hcapital (Nat.one_le_ceil_iff.mpr hpos) hm)
      · have htwo : 2 ≤ ⌈q⌉₊ := Nat.lt_ceil.mpr (by exact_mod_cast hone)
        exact hfail (exists_counted_once hrepeat htwo hm)
    · rintro (hzero | hlarge | ⟨hlower, hone | hnodup⟩) S
      · exact iff_of_true (hzero.trans (Nat.cast_nonneg _)) (hzero.trans (Nat.cast_nonneg _))
      · have hcount : (entries.countP fun k => k ∈ S) ≤ entries.length := List.countP_le_length
        have hcard : (signedHashes lc entries S).card ≤ entries.length := card_signedHashes_le
        refine iff_of_false (fun hq => ?_) fun hq => ?_
        · exact absurd (hq.trans (Nat.cast_le.mpr hcount)) (not_le.mpr hlarge)
        · exact absurd (hq.trans (Nat.cast_le.mpr hcard)) (not_le.mpr hlarge)
      · -- a threshold up to one is reached by nothing, or by anything at all
        have hreach (n : ℕ) : q ≤ n ↔ q ≤ 0 ∨ 0 < n := by
          refine ⟨fun hq => ?_, fun hq => ?_⟩
          · rcases Nat.eq_zero_or_pos n with rfl | hn
            · exact .inl (by simpa using hq)
            · exact .inr hn
          · rcases hq with hq | hn
            · exact hq.trans (Nat.cast_nonneg _)
            · exact hone.trans (by exact_mod_cast hn)
        rw [hreach, hreach, card_signedHashes_pos hlower]
      · rw [signedHashes_of_lower hlower, List.toFinset_card_of_nodup (hnodup.filter _),
    List.countP_eq_length_filter]

end Counts

/-- What a flat script must be like for its threshold to say the same as the ledger: no other
script has one. -/
def NativeScript.Reconciled (lc : LowerCase) : NativeScript → Prop
  | .all scripts => scripts.all NativeScript.isSig = true →
    CountsAgree lc (.finite scripts.length) (sigEntries scripts)
  | .any scripts => scripts.all NativeScript.isSig = true →
    CountsAgree lc (.finite 1) (sigEntries scripts)
  | .atLeast required scripts => scripts.all NativeScript.isSig = true →
    CountsAgree lc required (sigEntries scripts)
  | .sig _ | .before _ | .after _ => True

theorem satisfied_all_sigs {entries : List Text} :
    isNativeScriptSatisfied (.all (entries.map .sig)) S = true ↔
      (JsNumber.finite entries.length).reachedBy (entries.countP fun k => k ∈ S) = true := by
  have hle : (entries.countP fun k => k ∈ S) ≤ entries.length := List.countP_le_length
  rw [JsNumber.reachedBy_natCast, satisfied_all, List.forall_mem_map]
  constructor
  · intro h
    exact (List.countP_eq_length.mpr fun k hk => h k hk).ge
  · intro h k hk
    exact List.countP_eq_length.mp (le_antisymm hle h) k hk

theorem satisfied_any_sigs {entries : List Text} :
    isNativeScriptSatisfied (.any (entries.map .sig)) S = true ↔
      (JsNumber.finite 1).reachedBy (entries.countP fun k => k ∈ S) = true := by
  have hone := JsNumber.reachedBy_natCast 1 (entries.countP fun k => k ∈ S)
  rw [Nat.cast_one] at hone
  rw [hone, satisfied_any, Nat.one_le_iff_ne_zero, ← Nat.pos_iff_ne_zero, List.countP_pos_iff]
  simp [satisfied_sig]

theorem agrees_iff_of_parts {s : NativeScript} {scripts : List NativeScript}
    (hthreshold : flatThreshold s =
      if scripts.all NativeScript.isSig = true then some threshold else none)
    (hcollect : collectSigKeyHashes lc s ∅ = collectFrom lc scripts ∅)
    (hsat : ∀ (entries : List Text) S, scripts = entries.map .sig →
      (isNativeScriptSatisfied s S = true ↔
        threshold.reachedBy (entries.countP fun k => k ∈ S) = true)) :
    (∀ S t, (satisfactionProgress lc s S).threshold = some t →
      ((satisfactionProgress lc s S).satisfied = true ↔
        t.reachedBy (satisfactionProgress lc s S).signedLeaves = true)) ↔
      (scripts.all NativeScript.isSig = true →
        CountsAgree lc threshold (sigEntries scripts)) := by
  simp only [satisfactionProgress, hthreshold, hcollect]
  by_cases hflat : scripts.all NativeScript.isSig = true
  · have hentries := eq_map_sigEntries hflat
    have hleaves : collectFrom lc scripts ∅ =
        ((sigEntries scripts).map lc.toLowerCase).toFinset := by
      conv_lhs => rw [hentries]
      exact collect_sigs _
    rw [if_pos hflat, forall_prop_of_true hflat, ← countsAgree_iff, hleaves]
    refine forall_congr' fun S => ?_
    rw [← hsat _ S hentries]
    constructor
    · intro h
      exact h threshold rfl
    · intro h t ht
      obtain rfl := Option.some_inj.mp ht
      exact h
  · rw [if_neg hflat]
    exact iff_of_true nofun fun h => absurd h hflat

/-- **The figures of the progress view** agree with the ledger for every set of signers, if and only
if the two ways of counting agree on the script. -/
theorem satisfactionProgress_agrees_iff (lc : LowerCase) (s : NativeScript) :
    (∀ S t, (satisfactionProgress lc s S).threshold = some t →
      ((satisfactionProgress lc s S).satisfied = true ↔
        t.reachedBy (satisfactionProgress lc s S).signedLeaves = true)) ↔ s.Reconciled lc := by
  cases s with
  | sig _ | before _ | after _ =>
    exact iff_of_true nofun trivial
  | all scripts =>
    refine agrees_iff_of_parts rfl rfl fun entries S hentries => ?_
    rw [hentries, List.length_map]
    exact satisfied_all_sigs
  | any scripts =>
    refine agrees_iff_of_parts rfl rfl fun entries S hentries => ?_
    rw [hentries]
    exact satisfied_any_sigs
  | atLeast required scripts =>
    refine agrees_iff_of_parts rfl rfl fun entries S hentries => ?_
    rw [hentries, satisfied_atLeast, countP_sigs]

/-- A script that asks for the same key twice: one signature satisfies it, and the view shows one
leaf of two. -/
theorem not_satisfactionProgress_agrees : ¬∀ (s : NativeScript) (S : Finset Text) (t : JsNumber),
    (satisfactionProgress asciiLower s S).threshold = some t →
      ((satisfactionProgress asciiLower s S).satisfied = true ↔
        t.reachedBy (satisfactionProgress asciiLower s S).signedLeaves = true) := by
  intro h
  have hone := h (.all [.sig (List.replicate 56 'a'), .sig (List.replicate 56 'a')])
    {List.replicate 56 'a'} (.finite 2) rfl
  exact nomatch hone

end DrepTalk.Cardano
