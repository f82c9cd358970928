import DrepTalk.Governance.ParamLog
import DrepTalk.Library.DeltaLog
import DrepTalk.Library.Interleaving

/-!
# Overlapping runs of the parameter log

Any number of runs of `syncParamLog` (`src/lib/governance/paramLogSync.ts`), interleaved by their
reads and their batch, on a chain with one row of `epoch_params` for each epoch. Koios answers with
rows of that chain, of any length and with any gaps.

**What goes wrong** (`not_paramLog_sound`). A run reads how far the log is brought and, later, the
newest value of each key. Where another run has moved on in between, the first row is compared with
the values of a later epoch, and what differs from those is written as if it had changed.

**What holds** (`paramLog_sound`). Where the comparison is with the epoch that was read, as far as
the first row has it, and all runs that start the log start it at one epoch, the log is the delta of
the chain: it reads back as the chain, and each of its rows is a change.
-/

namespace DrepTalk

open DeltaLog

structure EpochChain where
  row : ℤ → ParamRow
  epoch_no : ∀ e, (row e).lookup "epoch_no" = some (.number e)
  unique : ∀ e, ((row e).map (·.1)).Nodup

/-- The table, and the epoch at which the first batch has started. -/
structure ParamLogWorld where
  db : ParamLogDb
  start : Option ℤ

/-- The answers are rows of the chain after the epoch that was asked for, in ascending order. -/
def ParamLogInput.Honest (chain : EpochChain) (input : ParamLogInput) : Prop :=
  ∀ after limit, ∃ epochs : List ℤ, epochs.Pairwise (· < ·) ∧ (∀ e ∈ epochs, after < e ∧ 0 ≤ e) ∧
    input.epochParamsAfter after limit = epochs.map chain.row

/-- The start of the log after the next statement. -/
def startAfter (start : Option ℤ) : ParamLogProc → Option ℤ
  | .based _ first _ _ => start <|> some first.1
  | _ => start

def paramLogStep (_ : Unit) (w : ParamLogWorld) (p : ParamLogProc) :
    Option (ParamLogWorld × ParamLogProc) :=
  (syncParamLogStep w.db p).map fun out => (⟨out.1, startAfter w.start p⟩, out.2)

def paramLogProgram (chain : EpochChain) : Program ParamLogWorld ParamLogProc where
  Start _ p := ∃ input, p = .begin input ∧ input.Honest chain
  Step w p w' p' := paramLogStep () w p = some (w', p')
  Env _ _ := False

def ParamLogWorld.Initial (w : ParamLogWorld) : Prop :=
  w.db.changes.rows = [] ∧ w.db.lastEpoch = none ∧ w.start = none

/-! ### What is said of the log -/

/-- The value that the log shows for an epoch. -/
def asOfValue (db : ParamLogDb) (epoch : ℤ) (key : String) : JsonValue :=
  valueIn ((newestRows (db.upTo epoch)).map fun e => (e.paramKey, e.valueJson)) key

def latestValue (db : ParamLogDb) (key : String) : JsonValue :=
  valueIn (loadLatestParamValues db) key

/-- The field is logged: it is not excluded, and has a value. -/
def loggedField (row : ParamRow) (key : String) : Option JsonValue :=
  if key ∈ PARAM_LOG_EXCLUDED then none else (row.lookup key).filter (· ≠ .null)

/-- The row read back has the keys of the row of the chain that are logged, with their values. -/
def ReadsBack (db : ParamLogDb) (chain : EpochChain) (epoch : ℤ) : Prop :=
  ∃ row, paramRowAsOf db epoch = some row ∧ ∀ key,
    (row.lookup key).map normalizeParamValue =
      (loggedField (chain.row epoch) key).map normalizeParamValue

def ParamLogDb.Logged (db : ParamLogDb) (key : String) (epoch : ℤ) (v : JsonValue) : Prop :=
  (⟨key, epoch, v⟩ : ParamChange) ∈ db.changes.rows

structure ParamLogSound (chain : EpochChain) (db : ParamLogDb) : Prop where
  reads_back : ∀ epoch last, (∃ c ∈ db.changes.rows, c.epoch ≤ epoch) → db.lastEpoch = some last →
    epoch ≤ last → ReadsBack db chain epoch
  no_repeat : ∀ key t t' v v', db.Logged key t v → db.Logged key t' v' → t < t' →
    (∀ u w, t < u → u < t' → ¬db.Logged key u w) → v ≠ v'
  real_change : ∀ c ∈ db.changes.rows, c.valueJson = rowValue (chain.row c.epoch) c.paramKey ∧
    ((∃ c' ∈ db.changes.rows, c'.epoch < c.epoch) →
      rowValue (chain.row (c.epoch - 1)) c.paramKey ≠ c.valueJson) ∧
    ((∀ c' ∈ db.changes.rows, c'.paramKey = c.paramKey → c.epoch ≤ c'.epoch) →
      c.valueJson ≠ .null)

/-- When a run reads the newest values, they are those of the epoch that it has read; and a run that
has found no log starts it where it is started. -/
def undisturbed : Program.Condition ParamLogWorld ParamLogProc where
  state _ := True
  mover w p :=
    match p with
    | .found after first _ => ∀ key, rowValue first.2 key = asOfValue w.db after key →
        latestValue w.db key = asOfValue w.db after key
    | .based after first _ _ => after < 0 → w.start = none ∨ w.start = some first.1
    | _ => True
  others _ _ _ := True

/-! ### The answers -/

/-- Rows of the chain from an epoch on. -/
def EpochChain.rowsFrom (chain : EpochChain) (s : ℤ) : ℕ → List (ℤ × ParamRow)
  | 0 => []
  | n + 1 => (s, chain.row s) :: chain.rowsFrom (s + 1) n

variable {chain : EpochChain}

theorem rowsFrom_succ (s : ℤ) (n : ℕ) :
    chain.rowsFrom s (n + 1) = chain.rowsFrom s n ++ [(s + n, chain.row (s + n))] := by
  induction n generalizing s with
  | zero => simp [EpochChain.rowsFrom]
  | succ n ih =>
    have hlast : s + 1 + (n : ℤ) = s + (n + 1 : ℕ) := by omega
    rw [EpochChain.rowsFrom, ih (s + 1), EpochChain.rowsFrom, List.cons_append, hlast]

theorem epochNo_row (e : ℤ) : epochNo (chain.row e) = some e := by
  rw [epochNo, chain.epoch_no e]
  simp

variable {epochs : List ℤ} {after s start : ℤ} {rest : List (ℤ × ParamRow)} {n : ℕ}
  {w w' : ParamLogWorld}

theorem scan_ended (chain : EpochChain) (hsorted : epochs.Pairwise (· < ·))
    (run : List (ℤ × ParamRow)) (expected : Option ℤ) {prev : ℤ} (hprev : ∀ e ∈ epochs, prev < e) :
    ∃ s, (epochs.map chain.row).foldlM RunScan.next ⟨run, some prev, expected, true⟩ = some s ∧
      s.run = run := by
  induction epochs generalizing prev with
  | nil => exact ⟨_, rfl, rfl⟩
  | cons e epochs ih =>
    obtain ⟨hnext, hsorted⟩ := List.pairwise_cons.mp hsorted
    have hstep : RunScan.next ⟨run, some prev, expected, true⟩ (chain.row e) =
        some ⟨run, some e, expected, true⟩ := by
      have hlt := hprev e List.mem_cons_self
      simp [RunScan.next, epochNo_row, hlt]
    obtain ⟨s, hs, hrun⟩ := ih hsorted hnext
    refine ⟨s, ?_, hrun⟩
    rw [List.map_cons, List.foldlM_cons, hstep]
    exact hs

theorem scan_going (chain : EpochChain) (hsorted : epochs.Pairwise (· < ·)) (s : ℤ) (n : ℕ)
    (hprev : ∀ e ∈ epochs, s + n < e) :
    ∃ s' m, (epochs.map chain.row).foldlM RunScan.next
      ⟨chain.rowsFrom s (n + 1), some (s + n), some (s + n + 1), false⟩ = some s' ∧
        s'.run = chain.rowsFrom s (m + 1) := by
  induction epochs generalizing n with
  | nil => exact ⟨_, n, rfl, rfl⟩
  | cons e epochs ih =>
    obtain ⟨hnext, hsorted⟩ := List.pairwise_cons.mp hsorted
    have hlt := hprev e List.mem_cons_self
    rw [List.map_cons, List.foldlM_cons]
    by_cases he : e = s + n + 1
    · have hcast : e = s + (n + 1 : ℕ) := by omega
      have hstep : RunScan.next ⟨chain.rowsFrom s (n + 1), some (s + n), some (s + n + 1), false⟩
          (chain.row e) =
            some ⟨chain.rowsFrom s (n + 1 + 1), some (s + (n + 1 : ℕ)), some (s + (n + 1 : ℕ) + 1),
              false⟩ := by
        rw [rowsFrom_succ s (n + 1), ← hcast]
        simp [RunScan.next, epochNo_row, he]
      rw [hstep]
      exact ih hsorted (n + 1) fun d hd => hcast ▸ hnext d hd
    · have hstep : RunScan.next ⟨chain.rowsFrom s (n + 1), some (s + n), some (s + n + 1), false⟩
          (chain.row e) =
            some ⟨chain.rowsFrom s (n + 1), some e, some (s + n + 1), true⟩ := by
        have hold : ¬e ≤ s + n := by omega
        simp [RunScan.next, epochNo_row, hold, Ne.symm he]
      rw [hstep]
      obtain ⟨s', hs', hrun⟩ := scan_ended chain hsorted (chain.rowsFrom s (n + 1))
        (some (s + n + 1)) hnext
      exact ⟨s', n, hs', hrun⟩

/-- The run of an answer: rows of the chain without a gap, from the epoch after the one that was
asked for, if one was read. -/
theorem contiguousRun_rows (hsorted : epochs.Pairwise (· < ·))
    (hepochs : ∀ e ∈ epochs, after < e ∧ 0 ≤ e) {first : ℤ × ParamRow}
    (h : contiguousRun (epochs.map chain.row) after = some (first :: rest)) :
    0 ≤ first.1 ∧ (0 ≤ after → first.1 = after + 1) ∧
      ∃ n, first :: rest = chain.rowsFrom first.1 (n + 1) := by
  rcases epochs with _ | ⟨e, epochs⟩
  · obtain ⟨s, hs, hrun⟩ := Option.map_eq_some_iff.mp h
    cases hs
    exact absurd hrun (List.cons_ne_nil first rest).symm
  obtain ⟨hnext, hsorted⟩ := List.pairwise_cons.mp hsorted
  obtain ⟨-, hpos⟩ := hepochs e List.mem_cons_self
  rw [contiguousRun, List.map_cons, List.foldlM_cons] at h
  by_cases he : 0 ≤ after → e = after + 1
  · have hstep : RunScan.next ⟨[], none, if 0 ≤ after then some (after + 1) else none, false⟩
        (chain.row e) =
          some ⟨chain.rowsFrom e (0 + 1), some (e + (0 : ℕ)), some (e + (0 : ℕ) + 1), false⟩ := by
      by_cases hafter : 0 ≤ after
      · simp [RunScan.next, epochNo_row, hafter, he hafter, EpochChain.rowsFrom]
      · simp [RunScan.next, epochNo_row, hafter, EpochChain.rowsFrom]
    rw [hstep] at h
    obtain ⟨s', m, hs', hrun⟩ := scan_going chain hsorted e 0
      fun d hd => by simpa using hnext d hd
    obtain ⟨s, hs, hmine⟩ := Option.map_eq_some_iff.mp h
    obtain rfl : s' = s := Option.some.inj (hs'.symm.trans hs)
    rw [hrun] at hmine
    obtain rfl : first = (e, chain.row e) := (List.cons.inj hmine).1.symm
    exact ⟨hpos, he, m, hmine.symm⟩
  · obtain ⟨hafter, hne⟩ := Classical.not_imp.mp he
    have hstep : RunScan.next ⟨[], none, if 0 ≤ after then some (after + 1) else none, false⟩
        (chain.row e) = some ⟨[], some e, some (after + 1), true⟩ := by
      simp [RunScan.next, epochNo_row, hafter, Ne.symm hne]
    rw [hstep] at h
    obtain ⟨s', hs', hrun⟩ := scan_ended chain hsorted [] (some (after + 1)) hnext
    obtain ⟨s, hs, hmine⟩ := Option.map_eq_some_iff.mp h
    obtain rfl : s' = s := Option.some.inj (hs'.symm.trans hs)
    exact absurd (hmine.symm.trans hrun) (List.cons_ne_nil first rest)

theorem toEpochOf_rowsFrom {first : ℤ × ParamRow}
    (h : first :: rest = chain.rowsFrom first.1 (n + 1)) : toEpochOf first rest = first.1 + n := by
  have hlast : (first :: rest).getLast? = some (first.1 + n, chain.row (first.1 + n)) := by
    rw [h, rowsFrom_succ, List.getLast?_concat]
  rw [toEpochOf]
  rcases rest with _ | ⟨second, rest⟩
  · have hfirst : first = (first.1 + n, chain.row (first.1 + n)) := Option.some.inj hlast
    exact congrArg Prod.fst hfirst
  · rw [List.getLast?_cons_cons] at hlast
    rw [hlast]
    rfl

/-! ### The inserts -/

variable {latest : ParamRow} {c : ParamChange} {stmts : List ParamChange}

/-- The inserts of a run: what differs from the row before, and, in its first row, from the values
that it was given. -/
theorem mem_plannedChanges (hlatest : ∀ k ∈ PARAM_LOG_EXCLUDED, latest.lookup k = none) :
    c ∈ plannedChanges latest (chain.rowsFrom s n) ↔ s ≤ c.epoch ∧ c.epoch < s + n ∧
      c.valueJson = rowValue (chain.row c.epoch) c.paramKey ∧
      c.valueJson ≠ if c.epoch = s then valueIn latest c.paramKey
        else rowValue (chain.row (c.epoch - 1)) c.paramKey := by
  induction n generalizing s latest with
  | zero =>
    simp only [EpochChain.rowsFrom, plannedChanges, List.not_mem_nil, false_iff]
    omega
  | succ n ih =>
    obtain ⟨hexcluded, hvalues⟩ := valueIn_after_diff (chain.row s) hlatest
    rw [EpochChain.rowsFrom, plannedChanges, List.mem_append, ih hexcluded, List.mem_map]
    simp only [mem_diffEpochParams hlatest, hvalues]
    obtain ⟨k, e, v⟩ := c
    simp only [ParamChange.mk.injEq]
    constructor
    · rintro (⟨d, ⟨hv, hne⟩, rfl, rfl, rfl⟩ | ⟨hle, hlt, hv, hne⟩)
      · rw [if_pos rfl]
        exact ⟨le_rfl, by omega, hv, hne⟩
      · refine ⟨by omega, by push_cast; omega, hv, ?_⟩
        rw [if_neg (by omega)]
        split_ifs at hne with hfirst
        · rwa [hfirst, Int.add_sub_cancel]
        · exact hne
    · rintro ⟨hle, hlt, hv, hne⟩
      by_cases hfirst : e = s
      · subst hfirst
        rw [if_pos rfl] at hne
        exact .inl ⟨⟨k, v⟩, ⟨hv, hne⟩, rfl, rfl, rfl⟩
      · rw [if_neg hfirst] at hne
        refine .inr ⟨by omega, by push_cast at hlt; omega, hv, ?_⟩
        split_ifs with hsecond
        · rwa [hsecond, Int.add_sub_cancel] at hne
        · exact hne

/-! ### Reading the log -/

/-- The log is the delta of the chain. -/
def IsChainDelta (chain : EpochChain) (db : ParamLogDb) (first last : ℤ) : Prop :=
  IsDelta .null (fun e => rowValue (chain.row e)) first last db.Logged

variable {db : ParamLogDb} {first last epoch : ℤ}

theorem mem_changes : c ∈ db.changes.rows ↔ db.Logged c.paramKey c.epoch c.valueJson := Iff.rfl

theorem mem_upTo : c ∈ db.upTo epoch ↔ c ∈ db.changes.rows ∧ c.epoch ≤ epoch := by
  rw [ParamLogDb.upTo, List.mem_filter, decide_eq_true_eq]

theorem asOfValue_eq (h : IsChainDelta chain db first last) (hfirst : first ≤ epoch)
    (hlast : epoch ≤ last) (key : String) :
    asOfValue db epoch key = rowValue (chain.row epoch) key := by
  refine valueIn_newestRows (fun p hp hk hnewest => ?_) fun hnone => ?_
  · obtain ⟨hmem, hle⟩ := mem_upTo.mp hp
    subst hk
    exact (h.value_of_newest (mem_changes.mp hmem) hle hlast fun u v hu hle' =>
      hnewest ⟨p.paramKey, u, v⟩ (mem_upTo.mpr ⟨hu, hle'⟩) rfl).symm
  · exact h.blank_of_none hfirst hlast fun u v hu hle =>
      hnone ⟨key, u, v⟩ (mem_upTo.mpr ⟨hu, hle⟩) rfl

theorem asOfValue_before (h : IsChainDelta chain db first last) (hbefore : epoch < first)
    (key : String) : asOfValue db epoch key = .null := by
  refine valueIn_newestRows (fun p hp _ _ => ?_) fun _ => rfl
  obtain ⟨hmem, hle⟩ := mem_upTo.mp hp
  have hwithin := (h.within _ _ _ (mem_changes.mp hmem)).1
  omega

theorem latestValue_eq (h : IsChainDelta chain db first last) (hle : first ≤ last)
    (key : String) : latestValue db key = rowValue (chain.row last) key := by
  refine valueIn_newestRows (fun p hp hk hnewest => ?_) fun hnone => ?_
  · subst hk
    exact (h.value_of_newest (mem_changes.mp hp) (h.within _ _ _ (mem_changes.mp hp)).2 le_rfl
      fun u v hu _ => hnewest ⟨p.paramKey, u, v⟩ hu rfl).symm
  · exact h.blank_of_none hle le_rfl fun u v hu _ => hnone ⟨key, u, v⟩ hu rfl

theorem lookup_latest_excluded (h : ∀ c ∈ db.changes.rows, c.paramKey ∉ PARAM_LOG_EXCLUDED) :
    ∀ k ∈ PARAM_LOG_EXCLUDED, (loadLatestParamValues db).lookup k = none := by
  intro k hk
  rw [loadLatestParamValues, List.lookup_eq_none_iff]
  intro p hp
  obtain ⟨e, he, rfl⟩ := List.mem_map.mp hp
  obtain ⟨c, hc, hkey, -⟩ := mem_newestRows.mp he
  exact bne_iff_ne.mpr fun heq => h c hc (hkey.trans heq.symm ▸ hk)

theorem not_excluded (h : IsChainDelta chain db first last) :
    ∀ c ∈ db.changes.rows, c.paramKey ∉ PARAM_LOG_EXCLUDED := by
  intro c hc hexcluded
  have hnull : ∀ e, rowValue (chain.row e) c.paramKey = .null := fun e => if_pos hexcluded
  have hchange := h.is_change _ _ _ (mem_changes.mp hc)
  rw [Changes, prior, hnull, hnull] at hchange
  exact hchange (by split_ifs <;> rfl)

theorem rowValue_eq_map (row : ParamRow) (key : String) :
    rowValue row key = ((loggedField row key).map normalizeParamValue).getD .null := by
  rw [rowValue, loggedField]
  split_ifs
  · rfl
  · rw [valueIn]
    rcases row.lookup key with _ | v
    · rfl
    · by_cases hv : v = .null
      · simp [Option.filter, hv, normalizeParamValue, canonical]
      · simp [Option.filter, hv]

/-- **The decoder.** What is read back for an epoch within the log is the row of the chain. -/
theorem readsBack_of_delta (h : IsChainDelta chain db first last)
    (hproto : ∀ e, (chain.row e).lookup PROTO = none) (hfirst : first ≤ epoch)
    (hlast : epoch ≤ last) {stored : ℤ} (hstored : db.lastEpoch = some stored)
    (hle : epoch ≤ stored) : ReadsBack db chain epoch := by
  refine ⟨paramRowFromLog (newestRows (db.upTo epoch)), ?_, fun key => ?_⟩
  · rw [paramRowAsOf, getParamLogState, hstored]
    exact if_neg (not_lt.mpr hle)
  have hall : ∀ e ∈ newestRows (db.upTo epoch), e.paramKey = key →
      e.valueJson = rowValue (chain.row epoch) key := by
    intro e he hk
    obtain ⟨p, hp, hpk, hpv, hnewest⟩ := mem_newestRows.mp he
    obtain ⟨hmem, hple⟩ := mem_upTo.mp hp
    rw [← hpv, ← hk, ← hpk]
    exact (h.value_of_newest (mem_changes.mp hmem) hple hlast fun u v hu hule =>
      hnewest ⟨p.paramKey, u, v⟩ (mem_upTo.mpr ⟨hu, hule⟩) rfl).symm
  have hthere : rowValue (chain.row epoch) key ≠ .null →
      ∃ e ∈ newestRows (db.upTo epoch), e.paramKey = key := by
    intro hne
    by_contra hnone
    refine hne (h.blank_of_none hfirst hlast fun u v hu hle => hnone ?_)
    obtain ⟨p, hp, hpk, hnewest⟩ := exists_newest ⟨⟨key, u, v⟩, mem_upTo.mpr ⟨hu, hle⟩, rfl⟩
    exact ⟨⟨key, p.valueJson⟩, mem_newestRows.mpr ⟨p, hp, hpk, rfl, fun q hq hqk =>
      hnewest q hq (hqk.trans hpk)⟩, rfl⟩
  have hnotProto : rowValue (chain.row epoch) key ≠ .null → key ≠ PROTO := by
    rintro hne rfl
    refine hne ?_
    rw [rowValue, valueIn, hproto]
    split_ifs <;> rfl
  rw [lookup_paramRowFromLog hall]
  have hvalue := rowValue_eq_map (chain.row epoch) key
  rcases hfield : loggedField (chain.row epoch) key with _ | v
  · rw [hfield] at hvalue
    rw [if_neg fun hif => hif.2.1 hvalue, Option.map_none]
  · rw [hfield] at hvalue
    have hv : v ≠ .null := by
      rw [loggedField] at hfield
      split_ifs at hfield
      simpa using (Option.filter_eq_some_iff.mp hfield).2
    have hne : rowValue (chain.row epoch) key ≠ .null := fun hnull =>
      hv (canonical_eq_null.mp (hvalue.symm.trans hnull))
    rw [if_pos ⟨hthere hne, hne, hnotProto hne⟩, hvalue]
    exact congrArg some (canonical_canonical v)

/-- **A delta of the chain** is what the log is for. -/
theorem ParamLogSound.of_delta (h : IsChainDelta chain db first last)
    (hproto : ∀ e, (chain.row e).lookup PROTO = none)
    (hstored : ∀ stored, db.lastEpoch = some stored → stored ≤ last) :
    ParamLogSound chain db where
  reads_back epoch stored hlogged hlast hle := by
    obtain ⟨c, hc, hcle⟩ := hlogged
    have hwithin := h.within _ _ _ (mem_changes.mp hc)
    exact readsBack_of_delta h hproto (by omega) (hle.trans (hstored stored hlast)) hlast hle
  no_repeat key t t' v v' hentry hentry' hlt hnone := h.successive_ne hentry hentry' hlt hnone
  real_change c hc := by
    have hchange := h.is_change _ _ _ (mem_changes.mp hc)
    have hwithin := h.within _ _ _ (mem_changes.mp hc)
    refine ⟨h.true_value _ _ _ (mem_changes.mp hc), ?_, fun hfirst => ?_⟩
    · rintro ⟨c', hc', hlt⟩
      have hwithin' := h.within _ _ _ (mem_changes.mp hc')
      rw [changes_of_first_lt (by omega)] at hchange
      rw [h.true_value _ _ _ (mem_changes.mp hc)]
      exact hchange.symm
    · rw [h.true_value _ _ _ (mem_changes.mp hc)]
      by_cases heq : c.epoch = first
      · rw [heq] at hchange ⊢
        exact changes_first.mp hchange
      · rw [changes_of_first_lt (by omega)] at hchange
        have hblank : rowValue (chain.row (c.epoch - 1)) c.paramKey = .null :=
          h.blank_of_none (by omega) (by omega) fun u v hu hle => by
            have hlater := hfirst ⟨c.paramKey, u, v⟩ hu rfl
            change c.epoch ≤ u at hlater
            omega
        rwa [hblank] at hchange

/-! ### The batch -/

/-- The inserts of a run are changes of the chain, and no change of its epochs is missing. -/
structure PlanOk (chain : EpochChain) (w : ParamLogWorld) (start from_ : ℤ) (n : ℕ)
    (stmts : List ParamChange) : Prop where
  changes : ∀ c ∈ stmts, Changes .null (fun e => rowValue (chain.row e)) start c.epoch c.paramKey
  within : ∀ c ∈ stmts, from_ ≤ c.epoch ∧ c.epoch ≤ from_ + n ∧
    c.valueJson = rowValue (chain.row c.epoch) c.paramKey
  covers : ∀ key e, from_ ≤ e → e ≤ from_ + n →
    Changes .null (fun e => rowValue (chain.row e)) start e key →
      w.db.Logged key e (rowValue (chain.row e) key) ∨
        ⟨key, e, rowValue (chain.row e) key⟩ ∈ stmts

theorem delta_empty (h : db.changes.rows = []) (first : ℤ) :
    IsChainDelta chain db first (first - 1) where
  within k t v hentry := by
    rw [ParamLogDb.Logged, h] at hentry
    cases hentry
  true_value k t v hentry := by
    rw [ParamLogDb.Logged, h] at hentry
    cases hentry
  is_change k t v hentry := by
    rw [ParamLogDb.Logged, h] at hentry
    cases hentry
  logged k t hfirst hlast := by omega

theorem delta_write {M : ℤ} (h : IsChainDelta chain w.db start M)
    (hplan : PlanOk chain w start s n stmts) (hstart : start ≤ s) (hnext : s ≤ M + 1)
    (toEpoch : ℤ) : IsChainDelta chain (w.db.write stmts toEpoch) start (max M (s + n)) := by
  obtain ⟨hkept, hfrom, hheld⟩ :
      (∀ c ∈ w.db.changes.rows, c ∈ (w.db.write stmts toEpoch).changes.rows) ∧
      (∀ c ∈ (w.db.write stmts toEpoch).changes.rows, c ∈ w.db.changes.rows ∨ c ∈ stmts) ∧
      ∀ c ∈ stmts, ∃ c' ∈ (w.db.write stmts toEpoch).changes.rows,
        (c'.paramKey, c'.epoch) = (c.paramKey, c.epoch) := KeyedTable.mem_insertAll
  -- whatever holds the key has the value of the chain
  have htrue : ∀ c ∈ (w.db.write stmts toEpoch).changes.rows,
      c.valueJson = rowValue (chain.row c.epoch) c.paramKey := fun c hc =>
    (hfrom c hc).elim (fun hold => h.true_value _ _ _ (mem_changes.mp hold)) fun hnew =>
      (hplan.within c hnew).2.2
  have hlast : s - 1 ≤ M := by omega
  refine h.extend hlast (fun k u v hu => hkept _ hu) (fun k u v hu => ?_) fun k u hu hle hchange => ?_
  · refine (hfrom _ hu).imp_right fun hnew => ?_
    obtain ⟨hfirst, hlast, hvalue⟩ := hplan.within _ hnew
    exact ⟨hstart.trans hfirst, hlast, hvalue, hplan.changes _ hnew⟩
  · rcases hplan.covers k u (by omega) hle hchange with hold | hnew
    · exact hkept _ hold
    · obtain ⟨c', hc', hkey⟩ := hheld _ hnew
      cases hkey
      rw [ParamLogDb.Logged, ← htrue c' hc']
      exact hc'

/-! ### The runs -/

def ParamLogInv (chain : EpochChain) (w : ParamLogWorld) : Prop :=
  match w.start with
  | none => w.db.changes.rows = [] ∧ w.db.lastEpoch = none
  | some start => 0 ≤ start ∧ ∃ M stored, IsChainDelta chain w.db start M ∧
      w.db.lastEpoch = some stored ∧ start ≤ stored ∧ stored ≤ M

def LogReaches (chain : EpochChain) (w : ParamLogWorld) (epoch : ℤ) : Prop :=
  ∃ start M, w.start = some start ∧ start ≤ epoch ∧ epoch ≤ M ∧ IsChainDelta chain w.db start M

/-- The rows of a run follow the epoch that it has read. -/
structure RunFollows (chain : EpochChain) (w : ParamLogWorld) (after : ℤ) (first : ℤ × ParamRow)
    (rest : List (ℤ × ParamRow)) (n : ℕ) : Prop where
  rows : first :: rest = chain.rowsFrom first.1 (n + 1)
  nonneg : 0 ≤ first.1
  next : 0 ≤ after → first.1 = after + 1 ∧ LogReaches chain w after

/-- What a run knows at each of its statements. -/
def ParamLogAsserts (chain : EpochChain) (w : ParamLogWorld) : ParamLogProc → Prop
  | .begin input => input.Honest chain
  | .found after first rest => ∃ n, RunFollows chain w after first rest n
  | .based after first rest latest => ∃ n, RunFollows chain w after first rest n ∧
      ∀ start, (0 ≤ after → w.start = some start) →
        (after < 0 → start = first.1 ∧ (w.start = none ∨ w.start = some start)) →
          PlanOk chain w start first.1 n (plannedChanges latest (first :: rest))
  | .done _ => True

/-- Where the first row of a run is compared with the log as it was read, it is no change where
nothing is written for it. -/
theorem first_row_of_undisturbed (hw : ParamLogInv chain w) {first : ℤ × ParamRow}
    (hfollows : RunFollows chain w after first rest n) {key : String}
    (hbase : rowValue (chain.row first.1) key = asOfValue w.db after key →
      latestValue w.db key = asOfValue w.db after key) (hstarted : 0 ≤ after → w.start = some start)
    (hstarting : after < 0 → start = first.1 ∧ (w.start = none ∨ w.start = some start)) :
    (rowValue (chain.row first.1) key ≠ latestValue w.db key →
      Changes .null (fun e => rowValue (chain.row e)) start first.1 key) ∧
    (Changes .null (fun e => rowValue (chain.row e)) start first.1 key →
      w.db.Logged key first.1 (rowValue (chain.row first.1) key) ∨
        rowValue (chain.row first.1) key ≠ latestValue w.db key) := by
  by_cases hafter : 0 ≤ after
  · obtain ⟨hnext, start', M, hstart', hle, hM, hdelta⟩ := hfollows.next hafter
    obtain rfl : start = start' := Option.some.inj ((hstarted hafter).symm.trans hstart')
    rw [changes_of_first_lt (by omega), asOfValue_eq hdelta hle hM] at *
    have hprev : first.1 - 1 = after := by omega
    rw [hprev]
    refine ⟨fun hne heq => hne (heq.trans (hbase heq).symm), fun hchange => ?_⟩
    by_cases hlast : first.1 ≤ M
    · refine .inl (hdelta.logged key first.1 (by omega) hlast ?_)
      rw [changes_of_first_lt (by omega), hprev]
      exact hchange
    · right
      rwa [latestValue_eq hdelta (hle.trans hM), show M = after by omega]
  · obtain ⟨rfl, hnone | hsome⟩ := hstarting (not_le.mp hafter)
    · rw [ParamLogInv, hnone] at hw
      have hempty : latestValue w.db key = .null := by
        rw [latestValue, loadLatestParamValues, newestRows, hw.1]
        rfl
      rw [changes_first, hempty]
      exact ⟨id, .inr⟩
    · rw [ParamLogInv, hsome] at hw
      obtain ⟨hpos, M, stored, hdelta, -, hstored, hM⟩ := hw
      rw [changes_first]
      rw [asOfValue_before hdelta (by omega)] at hbase
      refine ⟨fun hne hnull => hne (hnull.trans (hbase hnull).symm), fun hne => .inl ?_⟩
      exact hdelta.logged key first.1 le_rfl (hstored.trans hM) (changes_first.mpr hne)

theorem planOk_of_undisturbed (hw : ParamLogInv chain w) {first : ℤ × ParamRow}
    (hfollows : RunFollows chain w after first rest n)
    (hbase : ∀ key, rowValue first.2 key = asOfValue w.db after key →
      latestValue w.db key = asOfValue w.db after key) (hstarted : 0 ≤ after → w.start = some start)
    (hstarting : after < 0 → start = first.1 ∧ (w.start = none ∨ w.start = some start)) :
    PlanOk chain w start first.1 n
      (plannedChanges (loadLatestParamValues w.db) (first :: rest)) := by
  have hrow : first.2 = chain.row first.1 := by
    have hhead := (List.cons.inj hfollows.rows).1
    exact congrArg Prod.snd hhead
  have hexcluded : ∀ k ∈ PARAM_LOG_EXCLUDED, (loadLatestParamValues w.db).lookup k = none := by
    refine lookup_latest_excluded ?_
    rcases hstart : w.start with _ | s <;> rw [ParamLogInv, hstart] at hw
    · rw [hw.1]
      exact nofun
    · obtain ⟨-, M, stored, hdelta, -⟩ := hw
      exact not_excluded hdelta
  have hfirst := fun key => first_row_of_undisturbed hw hfollows (hrow ▸ hbase key) hstarted
    hstarting
  have hle : start ≤ first.1 := by
    by_cases hafter : 0 ≤ after
    · obtain ⟨hnext, start', M, hstart', hle, -⟩ := hfollows.next hafter
      obtain rfl : start = start' := Option.some.inj ((hstarted hafter).symm.trans hstart')
      omega
    · exact (hstarting (not_le.mp hafter)).1.le
  rw [hfollows.rows]
  constructor
  · intro c hc
    obtain ⟨hge, hlt, hvalue, hne⟩ := (mem_plannedChanges hexcluded).mp hc
    rw [hvalue] at hne
    split_ifs at hne with heq
    · rw [heq] at hne ⊢
      exact (hfirst c.paramKey).1 hne
    · rw [changes_of_first_lt (by omega)]
      exact hne
  · intro c hc
    obtain ⟨hge, hlt, hvalue, -⟩ := (mem_plannedChanges hexcluded).mp hc
    exact ⟨hge, by push_cast at hlt; omega, hvalue⟩
  · intro key e hge hle' hchange
    have hplanned : rowValue (chain.row e) key ≠
        (if e = first.1 then latestValue w.db key else rowValue (chain.row (e - 1)) key) →
          (⟨key, e, rowValue (chain.row e) key⟩ : ParamChange) ∈
            plannedChanges (loadLatestParamValues w.db) (chain.rowsFrom first.1 (n + 1)) :=
      fun hne => (mem_plannedChanges hexcluded).mpr
        ⟨hge, by push_cast; omega, rfl, hne⟩
    by_cases heq : e = first.1
    · subst heq
      refine ((hfirst key).2 hchange).imp_right fun hne => hplanned ?_
      rwa [if_pos rfl]
    · right
      refine hplanned ?_
      rw [if_neg heq]
      exact (changes_of_first_lt (by omega)).mp hchange

theorem paramLogStep_cases {p p' : ParamLogProc} (h : paramLogStep () w p = some (w', p')) :
    (w' = w ∧ ∃ result, p' = .done result) ∨
    (w' = w ∧ ∃ input after first rest, p = .begin input ∧ p' = .found after first rest ∧
      after = w.db.lastEpoch.getD (-1) ∧
      contiguousRun (input.epochParamsAfter after PARAM_LOG_BATCH) after = some (first :: rest)) ∨
    (w' = w ∧ ∃ after first rest, p = .found after first rest ∧
      p' = .based after first rest (loadLatestParamValues w.db)) ∨
    ∃ after first rest latest result, p = .based after first rest latest ∧ p' = .done result ∧
      w'.db = w.db.write (plannedChanges latest (first :: rest)) (toEpochOf first rest) ∧
      w'.start = (w.start <|> some first.1) := by
  obtain ⟨⟨db, q⟩, hout, heq⟩ := Option.map_eq_some_iff.mp h
  cases heq
  cases p with
  | begin input =>
    rw [syncParamLogStep] at hout
    split at hout
    · rename_i first rest hrun
      cases hout
      refine .inr (.inl ⟨rfl, input, _, first, rest, rfl, rfl, rfl, ?_⟩)
      split_ifs at hrun
      exact hrun
    · cases hout
      exact .inl ⟨rfl, _, rfl⟩
  | found after first rest =>
    cases hout
    exact .inr (.inr (.inl ⟨rfl, after, first, rest, rfl, rfl⟩))
  | based after first rest latest =>
    cases hout
    exact .inr (.inr (.inr ⟨after, first, rest, latest, _, rfl, rfl, rfl, rfl⟩))
  | done result => cases hout

theorem batch_keeps (hw : ParamLogInv chain w) {first : ℤ × ParamRow}
    (hknown : ParamLogAsserts chain w (.based after first rest latest))
    (hmover : after < 0 → w.start = none ∨ w.start = some first.1)
    (hdb : w'.db = w.db.write (plannedChanges latest (first :: rest)) (toEpochOf first rest))
    (hstart : w'.start = (w.start <|> some first.1)) :
    ParamLogInv chain w' ∧ ∀ epoch, LogReaches chain w epoch → LogReaches chain w' epoch := by
  obtain ⟨n, hfollows, hplan⟩ := hknown
  have hto := toEpochOf_rowsFrom hfollows.rows
  rw [hto] at hdb
  have hlast : w'.db.lastEpoch = some (first.1 + n) := by rw [hdb]; rfl
  rcases hstarted : w.start with _ | start <;> rw [hstarted] at hstart hmover
  · -- the batch starts the log
    rw [ParamLogInv, hstarted] at hw
    have hafter : after < 0 := by
      by_contra hafter
      obtain ⟨-, start, M, hsome, -⟩ := hfollows.next (not_lt.mp hafter)
      cases hstarted.symm.trans hsome
    have hdelta := delta_write (delta_empty hw.1 first.1)
      (hplan first.1 (fun h => absurd hafter (not_lt.mpr h)) fun _ => ⟨rfl, .inl hstarted⟩)
      le_rfl (by omega) (first.1 + n)
    rw [← hdb] at hdelta
    constructor
    · rw [ParamLogInv, hstart]
      exact ⟨hfollows.nonneg, _, _, hdelta, hlast, by omega, le_max_right _ _⟩
    · rintro epoch ⟨start, M, hsome, -⟩
      cases hstarted.symm.trans hsome
  · have hplanOk := hplan start (fun _ => hstarted) fun hafter =>
      ⟨by simpa using hmover hafter, .inr hstarted⟩
    rw [ParamLogInv, hstarted] at hw
    obtain ⟨hpos, M, stored, hdelta, -, hfirst, hM⟩ := hw
    -- the log that the run has read reaches up to its first row
    obtain ⟨M', hdelta', hle, hnext⟩ : ∃ M', IsChainDelta chain w.db start M' ∧ start ≤ first.1 ∧
        first.1 ≤ M' + 1 := by
      by_cases hafter : 0 ≤ after
      · obtain ⟨hnext, start', M', hsome, hle, hM', hdelta'⟩ := hfollows.next hafter
        obtain rfl : start = start' := Option.some.inj (hstarted.symm.trans hsome)
        exact ⟨M', hdelta', by omega, by omega⟩
      · obtain rfl : start = first.1 := by simpa using hmover (not_le.mp hafter)
        exact ⟨M, hdelta, le_rfl, by omega⟩
    have hwrite : ∀ L, IsChainDelta chain w.db start L → first.1 ≤ L + 1 →
        IsChainDelta chain w'.db start (max L (first.1 + n)) := fun L hL hLnext => by
      rw [hdb]
      exact delta_write hL hplanOk hle hLnext (first.1 + n)
    constructor
    · rw [ParamLogInv, hstart]
      exact ⟨hpos, _, _, hwrite M' hdelta' hnext, hlast, by omega, le_max_right _ _⟩
    · rintro epoch ⟨start', L, hsome, hepoch, hL, hdeltaL⟩
      obtain rfl : start = start' := Option.some.inj (hstarted.symm.trans hsome)
      rcases le_or_gt first.1 (L + 1) with hLnext | hLnext
      · exact ⟨start, _, hstart, hepoch, hL.trans (le_max_left _ _), hwrite L hdeltaL hLnext⟩
      · exact ⟨start, _, hstart, hepoch, (by omega : epoch ≤ first.1 + n).trans (le_max_right _ _),
          hwrite M' hdelta' hnext⟩

theorem asserts_after_batch {toEpoch : ℤ}
    (hcovers : ∀ epoch, LogReaches chain w epoch → LogReaches chain w' epoch)
    (hdb : w'.db = w.db.write stmts toEpoch) (hstart : w'.start = (w.start <|> some s))
    {m : ParamLogProc} (hm : ParamLogAsserts chain w m) : ParamLogAsserts chain w' m := by
  have hfollows : ∀ {after : ℤ} {first : ℤ × ParamRow} {rest : List (ℤ × ParamRow)} {n : ℕ},
      RunFollows chain w after first rest n → RunFollows chain w' after first rest n := fun h =>
    ⟨h.rows, h.nonneg, fun hafter => ⟨(h.next hafter).1, hcovers _ (h.next hafter).2⟩⟩
  cases m with
  | begin input => exact hm
  | found after first rest =>
    obtain ⟨n, h⟩ := hm
    exact ⟨n, hfollows h⟩
  | based after first rest latest =>
    obtain ⟨n, h, hplan⟩ := hm
    refine ⟨n, hfollows h, fun start hstarted hstarting => ?_⟩
    have hplanOk := hplan start ?_ ?_
    · exact ⟨hplanOk.changes, hplanOk.within, fun key e hge hle hchange =>
        (hplanOk.covers key e hge hle hchange).imp_left fun hold => hdb ▸
          (KeyedTable.mem_insertAll (t := w.db.changes)).1 _ hold⟩
    · intro hafter
      obtain ⟨-, start', M, hsome, -⟩ := (h.next hafter)
      have hsame := hstarted hafter
      rw [hstart, hsome] at hsame
      rw [hsome]
      exact hsame
    · intro hafter
      obtain ⟨hfirst, hcase⟩ := hstarting hafter
      refine ⟨hfirst, ?_⟩
      rcases hsome : w.start with _ | start'
      · exact .inl rfl
      · rw [hstart, hsome] at hcase
        exact hcase
  | done result => trivial

theorem follows_of_answer (hw : ParamLogInv chain w) {input : ParamLogInput}
    (hhonest : input.Honest chain) (hafter : after = w.db.lastEpoch.getD (-1))
    {first : ℤ × ParamRow}
    (hrun : contiguousRun (input.epochParamsAfter after PARAM_LOG_BATCH) after =
      some (first :: rest)) : ∃ n, RunFollows chain w after first rest n := by
  obtain ⟨epochs, hsorted, hepochs, hrows⟩ := hhonest after PARAM_LOG_BATCH
  rw [hrows] at hrun
  obtain ⟨hpos, hnext, n, hconsecutive⟩ := contiguousRun_rows hsorted hepochs hrun
  refine ⟨n, hconsecutive, hpos, fun hnonneg => ⟨hnext hnonneg, ?_⟩⟩
  rcases hstart : w.start with _ | start <;> rw [ParamLogInv, hstart] at hw
  · rw [hw.2] at hafter
    exact absurd hnonneg (by rw [hafter]; decide)
  · obtain ⟨-, M, stored, hdelta, hstored, hle, hM⟩ := hw
    rw [hstored, Option.getD_some] at hafter
    subst hafter
    exact ⟨start, M, hstart, hle, hM, hdelta⟩

/-- The runs are sound where they are undisturbed. -/
def paramLogRuns (chain : EpochChain) :
    (paramLogProgram chain).SoundWhen undisturbed ParamLogWorld.Initial where
  inv := ParamLogInv chain
  asserts := ParamLogAsserts chain
  apart _ _ := True
  symm _ _ _ := trivial
  init w h := by
    rw [ParamLogInv, h.2.2]
    exact ⟨h.1, h.2.1⟩
  start w p _ _ h := by
    obtain ⟨input, rfl, hhonest⟩ := h
    exact ⟨hhonest, fun _ _ => trivial⟩
  step w p w' p' _ hmover hw hp h := by
    rcases paramLogStep_cases h with ⟨rfl, result, rfl⟩ |
      ⟨rfl, input, after, first, rest, rfl, rfl, hafter, hrun⟩ | ⟨rfl, after, first, rest, rfl, rfl⟩ |
      ⟨after, first, rest, latest, result, rfl, rfl, hdb, hstart⟩
    · exact ⟨hw, trivial⟩
    · exact ⟨hw, follows_of_answer hw hp hafter hrun⟩
    · obtain ⟨n, hfollows⟩ := hp
      exact ⟨hw, n, hfollows, fun start hstarted hstarting =>
        planOk_of_undisturbed hw hfollows hmover hstarted hstarting⟩
    · exact ⟨(batch_keeps hw hp hmover hdb hstart).1, trivial⟩
  noninterference w p w' p' m _ hmover _ hw hp hm _ h := by
    refine ⟨?_, trivial⟩
    rcases paramLogStep_cases h with ⟨rfl, -⟩ | ⟨rfl, -⟩ | ⟨rfl, -⟩ |
      ⟨after, first, rest, latest, result, rfl, rfl, hdb, hstart⟩
    · exact hm
    · exact hm
    · exact hm
    · exact asserts_after_batch (batch_keeps hw hp hmover hdb hstart).2 hdb hstart hm
  env _ _ _ _ h := h.elim

/-- **The log is the delta of the chain**, in every interleaving of runs that are undisturbed. -/
theorem paramLog_sound {chain : EpochChain} (hproto : ∀ e, (chain.row e).lookup PROTO = none)
    {ι : Type*} [DecidableEq ι] {s : Interleaved ParamLogWorld ParamLogProc ι}
    (h : (((paramLogProgram chain).system ι ParamLogWorld.Initial).restrict
      undisturbed.Met).Reachable s) : ParamLogSound chain s.shared.db := by
  have hinv : ParamLogInv chain s.shared := ((paramLogRuns chain).holds h).inv
  rcases hstart : s.shared.start with _ | start <;> rw [ParamLogInv, hstart] at hinv
  · refine ParamLogSound.of_delta (delta_empty hinv.1 0) hproto fun stored hstored => ?_
    cases hinv.2.symm.trans hstored
  · obtain ⟨-, M, stored, hdelta, hlast, -, hM⟩ := hinv
    refine ParamLogSound.of_delta hdelta hproto fun stored' hstored => ?_
    rwa [← Option.some.inj (hlast.symm.trans hstored)]

/-! ### Two runs at a time -/

def sampleParamChain : EpochChain where
  row e := [("epoch_no", .number e), ("k", .string (if e < 2 then "a" else "b"))]
  epoch_no _ := rfl
  unique _ := by simp

def sampleAnswers (epochs : List ℤ) : ParamLogInput where
  epochParamsAfter after _ := (epochs.filter (after < ·)).map sampleParamChain.row
  clockEpoch := 99

theorem honest_sampleAnswers (hsorted : epochs.Pairwise (· < ·)) (hpos : ∀ e ∈ epochs, 0 ≤ e) :
    (sampleAnswers epochs).Honest sampleParamChain := by
  refine fun after limit => ⟨epochs.filter (after < ·), hsorted.filter _, fun e he => ?_, rfl⟩
  obtain ⟨hmem, hlt⟩ := List.mem_filter.mp he
  exact ⟨of_decide_eq_true hlt, hpos e hmem⟩

def sampleParamWorld : ParamLogWorld := ⟨⟨.empty, none⟩, none⟩

theorem paramLogStep_moves {chain : EpochChain} (k : Unit) (w : ParamLogWorld) (p : ParamLogProc)
    (w' : ParamLogWorld) (p' : ParamLogProc) (h : paramLogStep k w p = some (w', p')) :
    (paramLogProgram chain).Step w p w' p' := h

theorem sampleParamChain_proto (e : ℤ) : (sampleParamChain.row e).lookup PROTO = none := rfl

theorem sampleParamWorld_initial : sampleParamWorld.Initial := ⟨rfl, rfl, rfl⟩

/-- One run, that meets nobody. -/
theorem paramLog_sound_once : ∃ s : Interleaved ParamLogWorld ParamLogProc ℕ,
    s.shared.db.changes.rows = [⟨"k", 0, .string "a"⟩] ∧
      ParamLogSound sampleParamChain s.shared.db := by
  have h₀ : (((paramLogProgram sampleParamChain).system ℕ ParamLogWorld.Initial).restrict
      undisturbed.Met).Reachable ⟨sampleParamWorld, fun _ => none⟩ :=
    .init ⟨sampleParamWorld_initial, fun _ => rfl⟩
  have h₁ := Program.reachable_start h₀ (i := 0) trivial rfl
    ⟨sampleAnswers [0, 1], rfl, honest_sampleAnswers (by decide) (by decide)⟩
  have h₂ := Program.reachable_step h₁ (m := .found (-1) (0, sampleParamChain.row 0)
    [(1, sampleParamChain.row 1)]) (Function.update_self _ _ _) trivial trivial
    (fun _ => trivial) rfl
  have h₃ := Program.reachable_step h₂ (m := .based (-1) (0, sampleParamChain.row 0)
    [(1, sampleParamChain.row 1)] []) (Function.update_self _ _ _) trivial (fun _ _ => rfl)
    (fun _ => trivial) rfl
  have h₄ := Program.reachable_step h₃ (Function.update_self _ _ _) trivial
    (fun _ => .inl rfl) (fun _ => trivial) rfl
  exact ⟨_, by decide +kernel, paramLog_sound sampleParamChain_proto h₄⟩

/-- Two runs have read the same epoch. One goes on to the change at epoch 2, the other one compares
epoch 1 with the value from there. -/
theorem not_paramLog_sound : ∃ s : Interleaved ParamLogWorld ParamLogProc ℕ,
    ((paramLogProgram sampleParamChain).system ℕ ParamLogWorld.Initial).Reachable s ∧
      s.shared.db.changes.rows =
        [⟨"k", 0, .string "a"⟩, ⟨"k", 2, .string "b"⟩, ⟨"k", 1, .string "a"⟩] ∧
      ¬ParamLogSound sampleParamChain s.shared.db := by
  have h₀ : ((paramLogProgram sampleParamChain).system ℕ ParamLogWorld.Initial).Reachable
      ⟨sampleParamWorld, fun _ => none⟩ := .init ⟨sampleParamWorld_initial, fun _ => rfl⟩
  have h₁ := h₀.step (.start (i := 0) rfl
    ⟨sampleAnswers [0], rfl, honest_sampleAnswers (by decide) (by decide)⟩)
  have h₂ := Program.reachable_run paramLogStep_moves h₁ ([0, 0, 0].map fun i => (i, ()))
    (by decide +kernel)
  have h₃ := h₂.step (.start (i := 1) (by decide +kernel)
    ⟨sampleAnswers [1, 2], rfl, honest_sampleAnswers (by decide) (by decide)⟩)
  have h₄ := h₃.step (.start (i := 2) (by decide +kernel)
    ⟨sampleAnswers [1], rfl, honest_sampleAnswers (by decide) (by decide)⟩)
  have h₅ := Program.reachable_run paramLogStep_moves h₄
    ([1, 2, 1, 1, 2, 2].map fun i => (i, ())) (by decide +kernel)
  refine ⟨_, h₅, by decide +kernel, fun hsound => ?_⟩
  refine hsound.no_repeat "k" 0 1 (.string "a") (.string "a") ?_ ?_ (by decide)
    (fun u w h h' => absurd h' (by omega)) rfl
  · rw [ParamLogDb.Logged]
    decide +kernel
  · rw [ParamLogDb.Logged]
    decide +kernel

end DrepTalk
