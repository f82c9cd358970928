import DrepTalk.Auth.Nonces
import DrepTalk.Library.Interleaving

/-!
# Login nonces under interleaved calls

Any number of `issueNonce`, `consumeNonce` and `consumeNonceForDomain` calls for any domains, each
with a clock reading of its own, interleaved between their checks and their statements. Any
statement may fail. Beside the table the run records what has been issued, and the calls that have
consumed something.

**Rows are what is issued and not consumed** (`NoncesSafe`): of no payload are there more rows and
consumptions than issues, and as long as a payload has not expired there are no fewer. The first
makes its consumption single, the second keeps it possible, whatever other calls have failed.
-/

namespace DrepTalk

/-- The largest time that the platform's clock tells: 8.64e15 milliseconds. -/
def MAX_TIME_SEC : ℕ := 8640000000000

/-- What `issueNonce` has stored. -/
structure Issuance where
  domain : Text
  nonce : Text
  issuedAt : ℕ
  deriving DecidableEq

def Issuance.payload (i : Issuance) : Text := noncePayload i.domain i.nonce i.issuedAt

/-- The table and the clock, and what has been issued and consumed so far. -/
structure NonceWorld where
  table : NonceTable
  clock : ℕ
  issued : List Issuance
  consumed : List ConsumeArgs

/-- A call, by what it does next, or its answer. -/
inductive NonceProc
  | issueNonce (domain nonce : Text) (issuedAt : ℕ)
  | consumeNonce (args : ConsumeArgs)
  | deleteRow (args : ConsumeArgs) (nonce : Text)
  | issued (payload : Option Text)
  | returned (args : ConsumeArgs) (answer : Bool)

/-- The next step of a call; a statement may fail. -/
def nonceStep (fails : Bool) (w : NonceWorld) : NonceProc → Option (NonceWorld × NonceProc)
  | .issueNonce domain nonce issuedAt =>
    if fails then some (w, .issued none)
    else
      match issueNonceBatch w.table domain nonce issuedAt with
      | none => some (w, .issued none)
      | some table =>
        some ({ w with table := table, issued := w.issued ++ [⟨domain, nonce, issuedAt⟩] },
          .issued (some (noncePayload domain nonce issuedAt)))
  | .consumeNonce args =>
    match args.check with
    | none => some (w, .returned args false)
    | some nonce => some (w, .deleteRow args nonce)
  | .deleteRow args nonce =>
    if fails then some (w, .returned args false)
    else
      let (table, answer) := deleteNonce w.table nonce args.payload
      some ({ w with
        table := table
        consumed := if answer then w.consumed ++ [args] else w.consumed }, .returned args answer)
  | .issued _ | .returned _ _ => none

/-- Calls read the clock, and the random bytes, as they start. -/
inductive NonceStart (w : NonceWorld) : NonceProc → Prop
  | issueNonce (domain nonce : Text) (hnonce : nonce.all isBase64Url = true) :
    NonceStart w (.issueNonce domain nonce w.clock)
  | consumeNonce (args : ConsumeArgs) (hnow : args.now = w.clock) :
    NonceStart w (.consumeNonce args)

/-- The calls, while the clock never runs backwards. -/
def nonceProgram : Program NonceWorld NonceProc where
  Start := NonceStart
  Step w l w' l' := ∃ fails, nonceStep fails w l = some (w', l')
  Env w w' := ∃ clock, w.clock ≤ clock ∧ clock ≤ MAX_TIME_SEC ∧ w' = { w with clock := clock }

def NonceWorld.Initial (w : NonceWorld) : Prop :=
  w.table = .empty ∧ w.clock ≤ MAX_TIME_SEC ∧ w.issued = [] ∧ w.consumed = []

/-! ### The invariant -/

namespace NonceWorld

def stored (w : NonceWorld) (payload : Text) : ℕ :=
  w.table.rows.countP fun row => row.payload == payload

/-- How often a payload has been issued. -/
def timesIssued (w : NonceWorld) (payload : Text) : ℕ :=
  w.issued.countP fun i => i.payload == payload

/-- How often a payload has been consumed. -/
def timesConsumed (w : NonceWorld) (payload : Text) : ℕ :=
  w.consumed.countP fun args => args.payload == payload

end NonceWorld

/-- The call was right to consume what the issue has stored. -/
structure Entitled (args : ConsumeArgs) (i : Issuance) : Prop where
  payload : args.payload = i.payload
  domain : ∀ d ∈ args.expectedDomain, d = i.domain
  issued : i.issuedAt ≤ args.now
  age : (args.now : ℤ) - i.issuedAt ≤ args.maxAge

/-- What holds of nonces in every run. -/
structure NoncesSafe (w : NonceWorld) : Prop where
  clock : w.clock ≤ MAX_TIME_SEC
  issued : ∀ i ∈ w.issued, i.nonce.all isBase64Url = true ∧ i.issuedAt ≤ w.clock
  rows : ∀ row ∈ w.table.rows, ∃ i ∈ w.issued,
    row = ⟨i.nonce, i.payload, i.issuedAt + NONCE_TTL_SEC⟩
  single : ∀ payload, w.stored payload + w.timesConsumed payload ≤ w.timesIssued payload
  kept : ∀ payload, (∀ i ∈ w.issued, i.payload = payload → w.clock < i.issuedAt + NONCE_TTL_SEC) →
    w.timesIssued payload ≤ w.stored payload + w.timesConsumed payload
  entitled : ∀ args ∈ w.consumed, ∃ i ∈ w.issued, Entitled args i

def NonceProc.Asserts (w : NonceWorld) : NonceProc → Prop
  | .issueNonce _ nonce issuedAt => nonce.all isBase64Url = true ∧ issuedAt ≤ w.clock
  | .deleteRow args nonce => args.check = some nonce
  | .returned args answer => answer = true → args ∈ w.consumed
  | _ => True

variable {w w' : NonceWorld} {l : NonceProc}

theorem NonceProc.Asserts.mono (h : l.Asserts w) (hclock : w.clock ≤ w'.clock)
    (hconsumed : ∀ args ∈ w.consumed, args ∈ w'.consumed) :
    l.Asserts w' := by
  rcases l with ⟨_, _, _⟩ | _ | _ | _ | _
  · exact ⟨h.1, h.2.trans hclock⟩
  · exact trivial
  · exact h
  · exact trivial
  · exact fun hanswer => hconsumed _ (h hanswer)

variable {table : NonceTable} {nonce : Text}

theorem issueNonceBatch_eq_some {table' : NonceTable} {domain : Text} {issuedAt : ℕ}
    (h : issueNonceBatch table domain nonce issuedAt = some table') :
    table'.rows = Table.deleteWhere (fun row => decide (row.expiresAt ≤ issuedAt)) table.rows ++
      [⟨nonce, noncePayload domain nonce issuedAt, issuedAt + NONCE_TTL_SEC⟩] := by
  rw [issueNonceBatch] at h
  split_ifs at h with htaken
  rw [← Option.some.inj h, KeyedTable.insertOrIgnore, dif_neg htaken]
  rfl

/-- **An issue** stores its payload, and sweeps only what has expired. -/
theorem NoncesSafe.issue (hw : NoncesSafe w) {domain : Text} {issuedAt : ℕ}
    (hnonce : nonce.all isBase64Url = true) (htime : issuedAt ≤ w.clock)
    (h : issueNonceBatch w.table domain nonce issuedAt = some table) :
    NoncesSafe { w with table := table, issued := w.issued ++ [⟨domain, nonce, issuedAt⟩] } := by
  have hrows := issueNonceBatch_eq_some h
  have hstored : ∀ payload, table.rows.countP (fun row => row.payload == payload) =
      (Table.deleteWhere (fun row => decide (row.expiresAt ≤ issuedAt)) w.table.rows).countP
          (fun row => row.payload == payload) +
        if noncePayload domain nonce issuedAt == payload then 1 else 0 := by
    intro payload
    rw [hrows, List.countP_append, List.countP_singleton]
  have htimes : ∀ payload, (w.issued ++ [Issuance.mk domain nonce issuedAt]).countP
      (fun i => i.payload == payload) = w.timesIssued payload +
        if noncePayload domain nonce issuedAt == payload then 1 else 0 := by
    intro payload
    rw [List.countP_append, List.countP_singleton]
    rfl
  refine ⟨hw.clock, fun i hi => ?_, fun row hrow => ?_, fun payload => ?_,
    fun payload hlive => ?_, fun args hargs => ?_⟩
  · rcases List.mem_append.mp hi with hi | hi
    · exact hw.issued i hi
    · obtain rfl := List.mem_singleton.mp hi
      exact ⟨hnonce, htime⟩
  · rw [hrows] at hrow
    rcases List.mem_append.mp hrow with hrow | hrow
    · obtain ⟨i, hi, heq⟩ := hw.rows row (Table.mem_deleteWhere.mp hrow).1
      exact ⟨i, List.mem_append_left _ hi, heq⟩
    · exact ⟨_, List.mem_append_right _ (List.mem_singleton_self _), List.mem_singleton.mp hrow⟩
  · have hle : (Table.deleteWhere (fun row => decide (row.expiresAt ≤ issuedAt))
        w.table.rows).countP (fun row => row.payload == payload) ≤ w.stored payload :=
      (Table.deleteWhere_sublist _ _).countP_le
    have hsingle := hw.single payload
    change table.rows.countP _ + w.timesConsumed payload ≤ List.countP _ (_ ++ [_])
    rw [hstored, htimes]
    omega
  · -- a row of a payload that has not expired is not swept
    have heq : (Table.deleteWhere (fun row => decide (row.expiresAt ≤ issuedAt))
        w.table.rows).countP (fun row => row.payload == payload) = w.stored payload := by
      rw [Table.deleteWhere, List.countP_filter]
      refine List.countP_congr fun row hrow => ?_
      obtain ⟨i, hi, rfl⟩ := hw.rows row hrow
      rw [Bool.and_eq_true, and_iff_left_iff_imp, beq_iff_eq]
      intro hpayload
      have := hlive i (List.mem_append_left _ hi) hpayload
      simp only [Bool.not_eq_true', decide_eq_false_iff_not, not_le]
      exact htime.trans_lt this
    have hkept := hw.kept payload fun i hi => hlive i (List.mem_append_left _ hi)
    change List.countP _ (_ ++ [_]) ≤ table.rows.countP _ + w.timesConsumed payload
    rw [hstored, htimes]
    omega
  · obtain ⟨i, hi, hentitled⟩ := hw.entitled args hargs
    exact ⟨i, List.mem_append_left _ hi, hentitled⟩

theorem deleteNonce_false {payload : Text} (h : (deleteNonce table nonce payload).2 = false) :
    Table.deleteWhere (holdsPayload nonce payload) table.rows = table.rows := by
  refine List.filter_eq_self.mpr fun row hrow => ?_
  rw [Bool.not_eq_true', ← Bool.not_eq_true]
  intro hholds
  have hany : table.rows.any (holdsPayload nonce payload) = true :=
    List.any_eq_true.mpr ⟨row, hrow, hholds⟩
  exact Bool.false_ne_true (h.symm.trans hany)

variable {args : ConsumeArgs}

/-- **A consumption** takes one row of its payload; without such a row nothing happens. -/
theorem NoncesSafe.consume (hw : NoncesSafe w) (hcheck : args.check = some nonce) :
    NoncesSafe { w with
      table := (deleteNonce w.table nonce args.payload).1
      consumed := if (deleteNonce w.table nonce args.payload).2 then w.consumed ++ [args]
        else w.consumed } := by
  by_cases hany : w.table.rows.any (holdsPayload nonce args.payload) = true
  · obtain ⟨row, hmem, hrow⟩ := List.any_eq_true.mp hany
    obtain ⟨rfl, hpayload⟩ : row.nonce = nonce ∧ row.payload = args.payload := by
      simpa [holdsPayload] using hrow
    have hcount := w.table.countP_deleteWhere hmem hrow fun row' h => by
      simp only [holdsPayload, Bool.and_eq_true, beq_iff_eq] at h
      exact h.1
    simp only [deleteNonce, hany, if_true]
    have hsum : ∀ payload, (Table.deleteWhere (holdsPayload row.nonce args.payload)
        w.table.rows).countP (fun row => row.payload == payload) +
        (w.consumed ++ [args]).countP (fun args => args.payload == payload) =
        w.stored payload + w.timesConsumed payload := by
      intro payload
      have := hcount fun row => row.payload == payload
      simp only [hpayload] at this
      rw [List.countP_append, List.countP_singleton, NonceWorld.stored, NonceWorld.timesConsumed,
        ← this]
      omega
    refine ⟨hw.clock, hw.issued, fun row hrow => hw.rows row (Table.mem_deleteWhere.mp hrow).1,
      fun payload => ?_, fun payload hlive => ?_, fun args' hargs => ?_⟩
    · exact (hsum payload).trans_le (hw.single payload)
    · exact (hw.kept payload hlive).trans_eq (hsum payload).symm
    · rcases List.mem_append.mp hargs with hargs | hargs
      · exact hw.entitled args' hargs
      · obtain rfl := List.mem_singleton.mp hargs
        obtain ⟨i, hi, rfl⟩ := hw.rows row hmem
        obtain ⟨-, hdomain, -, hissued, hage⟩ :=
          (ConsumeArgs.check_eq_some (hw.issued i hi).1 hpayload.symm).mp hcheck
        exact ⟨i, hi, hpayload.symm, hdomain, hissued, hage⟩
  · have hnone : Table.deleteWhere (holdsPayload nonce args.payload) w.table.rows =
        w.table.rows := deleteNonce_false (Bool.not_eq_true _ ▸ hany)
    simp only [deleteNonce, hany]
    refine ⟨hw.clock, hw.issued, fun row hrow => hw.rows row ?_, fun payload => ?_,
      fun payload hlive => ?_, hw.entitled⟩
    · exact hnone ▸ hrow
    · exact (congrArg (List.countP _ · + _) hnone).trans_le (hw.single payload)
    · exact (hw.kept payload hlive).trans_eq (congrArg (List.countP _ · + _) hnone).symm

theorem NoncesSafe.step {l' : NonceProc} {fails : Bool} (hw : NoncesSafe w) (hl : l.Asserts w)
    (h : nonceStep fails w l = some (w', l')) :
    NoncesSafe w' ∧ l'.Asserts w' ∧ w'.clock = w.clock ∧
      ∀ args ∈ w.consumed, args ∈ w'.consumed := by
  rcases l with ⟨domain, nonce, issuedAt⟩ | args | ⟨args, nonce⟩ | _ | _
  · rw [nonceStep] at h
    split_ifs at h
    · cases h
      exact ⟨hw, trivial, rfl, fun _ => id⟩
    · rcases hbatch : issueNonceBatch w.table domain nonce issuedAt with _ | table
      · rw [hbatch] at h
        cases h
        exact ⟨hw, trivial, rfl, fun _ => id⟩
      · rw [hbatch] at h
        cases h
        exact ⟨hw.issue hl.1 hl.2 hbatch, trivial, rfl, fun _ => id⟩
  · rw [nonceStep] at h
    rcases hcheck : args.check with _ | nonce
    · rw [hcheck] at h
      cases h
      exact ⟨hw, nofun, rfl, fun _ => id⟩
    · rw [hcheck] at h
      cases h
      exact ⟨hw, hcheck, rfl, fun _ => id⟩
  · rw [nonceStep] at h
    split_ifs at h
    · cases h
      exact ⟨hw, nofun, rfl, fun _ => id⟩
    · cases h
      refine ⟨hw.consume hl, fun hanswer => ?_, rfl, fun args' hargs => ?_⟩
      · exact (if_pos hanswer).symm ▸ List.mem_append_right _ (List.mem_singleton_self _)
      · dsimp only
        split_ifs
        · exact List.mem_append_left _ hargs
        · exact hargs
  · cases h
  · cases h

def nonceSound : nonceProgram.Sound NonceWorld.Initial where
  inv := NoncesSafe
  asserts w l := l.Asserts w
  apart _ _ := True
  symm _ _ _ := trivial
  init w h := by
    obtain ⟨htable, hclock, hissued, hconsumed⟩ := h
    refine ⟨hclock, ?_, ?_, fun payload => ?_, fun payload _ => ?_, ?_⟩ <;>
      simp [NonceWorld.stored, NonceWorld.timesIssued, NonceWorld.timesConsumed, htable, hissued,
        hconsumed, KeyedTable.empty]
  start w l _ h := by
    refine ⟨?_, fun _ _ => trivial⟩
    rcases h with ⟨domain, nonce, hnonce⟩ | ⟨args, hnow⟩
    · exact ⟨hnonce, le_rfl⟩
    · exact trivial
  step w l w' l' hw hl h := by
    obtain ⟨fails, h⟩ := h
    obtain ⟨hsafe, hasserts, -, -⟩ := hw.step hl h
    exact ⟨hsafe, hasserts⟩
  noninterference w l w' l' m hw hl hm _ h := by
    obtain ⟨fails, h⟩ := h
    obtain ⟨-, -, hclock, hconsumed⟩ := hw.step hl h
    exact ⟨hm.mono hclock.ge hconsumed, trivial⟩
  env w w' hw h := by
    obtain ⟨clock, hle, hmax, rfl⟩ := h
    refine ⟨⟨hmax, fun i hi => ?_, hw.rows, hw.single, fun payload hlive => ?_, hw.entitled⟩,
      fun m hm => hm.mono hle fun _ => id⟩
    · exact ⟨(hw.issued i hi).1, (hw.issued i hi).2.trans hle⟩
    · exact hw.kept payload fun i hi hpayload => hle.trans_lt (hlive i hi hpayload)

/-! ### Single use -/

theorem NoncesSafe.payload_nodup (hw : NoncesSafe w) (hnonces : (w.issued.map (·.nonce)).Nodup) :
    (w.consumed.map (·.payload)).Nodup := by
  have hissued : (w.issued.map (·.payload)).Nodup := by
    refine hnonces.of_map.map_on fun i hi j hj h => ?_
    exact List.inj_on_of_nodup_map hnonces hi hj
      (noncePayload_inj (hw.issued i hi).1 (hw.issued j hj).1 h).2.1
  rw [List.nodup_iff_count_le_one] at hissued ⊢
  intro payload
  have honce := hissued payload
  rw [List.count, List.countP_map] at honce ⊢
  exact ((Nat.le_add_left _ _).trans (hw.single payload)).trans honce

theorem NoncesSafe.consumable (hw : NoncesSafe w) {i : Issuance} (hi : i ∈ w.issued)
    (hunused : w.timesConsumed i.payload < w.timesIssued i.payload)
    (hlive : w.clock < i.issuedAt + NONCE_TTL_SEC) (h : Entitled args i) :
    (consumeNonce w.table args).2 = true := by
  have hnonce := (hw.issued i hi).1
  have hkept := hw.kept i.payload fun j hj hpayload => by
    obtain ⟨-, -, hsame⟩ := noncePayload_inj (hw.issued j hj).1 hnonce hpayload
    exact hsame ▸ hlive
  obtain ⟨row, hmem, hrow⟩ : ∃ row ∈ w.table.rows, (row.payload == i.payload) = true :=
    List.countP_pos_iff.mp (by rw [NonceWorld.stored] at hkept; omega)
  obtain ⟨j, hj, rfl⟩ := hw.rows row hmem
  rw [beq_iff_eq] at hrow
  obtain ⟨-, hsame, -⟩ := noncePayload_inj (hw.issued j hj).1 hnonce hrow
  have hsmall : i.issuedAt < 10 ^ 15 :=
    ((hw.issued i hi).2.trans hw.clock).trans_lt (by decide)
  have hcheck : args.check = some i.nonce :=
    (ConsumeArgs.check_eq_some hnonce h.payload).mpr ⟨rfl, h.domain, hsmall, h.issued, h.age⟩
  rw [consumeNonce, hcheck]
  refine List.any_eq_true.mpr ⟨_, hmem, ?_⟩
  rw [holdsPayload, Bool.and_eq_true, beq_iff_eq, beq_iff_eq]
  exact ⟨hsame, hrow.trans h.payload.symm⟩

theorem nonceStep_false {fails : Bool} (h : nonceStep fails w l = some (w', .returned args false)) :
    w' = w := by
  rcases l with ⟨domain, nonce, issuedAt⟩ | args' | ⟨args', nonce⟩ | _ | _
  · rw [nonceStep] at h
    split_ifs at h
    · cases h
    · split at h <;> cases h
  · rw [nonceStep] at h
    split at h <;> cases h
    rfl
  · rw [nonceStep] at h
    split_ifs at h
    · cases h
      rfl
    · rw [Option.some.injEq, Prod.mk.injEq, NonceProc.returned.injEq] at h
      obtain ⟨rfl, rfl, hanswer⟩ := h
      have hnone : Table.deleteWhere (holdsPayload nonce args'.payload) w.table.rows =
          w.table.rows := deleteNonce_false hanswer
      rw [hanswer]
      obtain ⟨⟨rows, hunique⟩, clock, issued, consumed⟩ := w
      simp only [Bool.false_eq_true, if_false, NonceWorld.mk.injEq, KeyedTable.mk.injEq,
        deleteNonce, KeyedTable.deleteWhere, and_true]
      exact hnone
  · cases h
  · cases h

theorem nonceStep_moves (fails : Bool) (w : NonceWorld) (l : NonceProc) (w' : NonceWorld)
    (l' : NonceProc) (h : nonceStep fails w l = some (w', l')) : nonceProgram.Step w l w' l' :=
  ⟨fails, h⟩

end DrepTalk
