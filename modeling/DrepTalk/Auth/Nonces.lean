import DrepTalk.Library.Table
import DrepTalk.Format.Decimal

/-!
# Login nonces

`src/lib/auth/nonce.ts`: a nonce is stored with the *payload* that the client is to sign, a string
that joins the domain, the nonce and the time of issue with colons. To consume a nonce the payload
is taken apart again and the row that holds exactly this nonce and payload is deleted.

**Colons** may stand in a domain, so a payload is read from its end: neither a nonce, which is
base64url, nor a number contains one (`splitPayload_noncePayload`).

The random bytes are drawn by the platform: a nonce is any text over the base64url alphabet. Times
are seconds since 1970, and `Number.isFinite` holds of every number of at most 15 digits.
-/

namespace DrepTalk

/-- `NONCE_TTL_SEC`: 5 minutes. -/
def NONCE_TTL_SEC : ℕ := 300

def PAYLOAD_PREFIX : Text := "dreptalk".toList

/-- A row of `auth_nonces`. -/
structure NonceRow where
  nonce : Text
  payload : Text
  expiresAt : ℕ

abbrev NonceTable := KeyedTable fun row : NonceRow => row.nonce

def noncePayload (domain nonce : Text) (issuedAt : ℕ) : Text :=
  PAYLOAD_PREFIX ++ ':' :: (domain ++ ':' :: (nonce ++ ':' :: decimal issuedAt))

/-- The alphabet of `toBase64Url`. -/
def isBase64Url (c : Char) : Bool := c.isAlphanum || c == '-' || c == '_'

/-- The batch of `issueNonce`: expired rows are swept, and the new one goes in unless its nonce is
taken. -/
def issueNonceBatch (table : NonceTable) (domain nonce : Text) (issuedAt : ℕ) : Option NonceTable :=
  let swept := table.deleteWhere fun row => decide (row.expiresAt ≤ issuedAt)
  if nonce ∈ swept.rows.map (·.nonce) then none
  else some (swept.insertOrIgnore
    ⟨nonce, noncePayload domain nonce issuedAt, issuedAt + NONCE_TTL_SEC⟩)

/-! ### Taking a payload apart -/

/-- The segments of a payload behind its prefix: those of the domain, the nonce and the time. -/
def splitPayload (payload : Text) : Option (List Text × Text × Text) :=
  match payload.splitOn ':' with
  | pre :: rest =>
    if pre ≠ PAYLOAD_PREFIX then none
    else
      match rest.reverse with
      | issuedAtStr :: nonce :: last :: front => some ((last :: front).reverse, nonce, issuedAtStr)
      | _ => none
  | [] => none

/-- `/^\d{1,15}$/`. -/
def isIssuedAtStr (s : Text) : Bool :=
  s.all Char.isDigit && decide (1 ≤ s.length) && decide (s.length ≤ 15)

/-- What a call of `consumeNonce`, or of `consumeNonceForDomain`, is given, with its clock
reading. -/
structure ConsumeArgs where
  payload : Text
  expectedDomain : Option Text
  now : ℕ
  maxAgeSec : Option ℤ

/-- The maximum age, with its default. -/
def ConsumeArgs.maxAge (args : ConsumeArgs) : ℤ := args.maxAgeSec.getD NONCE_TTL_SEC

/-- The check of `consumeNonceForDomain`. -/
def ConsumeArgs.domainOk (args : ConsumeArgs) : Bool :=
  match args.expectedDomain with
  | none => true
  | some expectedDomain =>
    match splitPayload args.payload with
    | some (domain, _, _) => [':'].intercalate domain == expectedDomain
    | none => false

/-- The checks before the delete; the nonce, if they pass. -/
def ConsumeArgs.check (args : ConsumeArgs) : Option Text :=
  if !args.domainOk then none
  else
    match splitPayload args.payload with
    | none => none
    | some (_, nonce, issuedAtStr) =>
      if !isIssuedAtStr issuedAtStr then none
      else
        let issuedAt := Nat.ofDigitChars 10 issuedAtStr 0
        if args.now < issuedAt then none
        else if args.maxAge < (args.now : ℤ) - issuedAt then none
        else some nonce

def holdsPayload (nonce payload : Text) (row : NonceRow) : Bool :=
  row.nonce == nonce && row.payload == payload

/-- Deletes the row of exactly this nonce and payload; the answer says whether there was one. -/
def deleteNonce (table : NonceTable) (nonce payload : Text) : NonceTable × Bool :=
  (table.deleteWhere (holdsPayload nonce payload), table.rows.any (holdsPayload nonce payload))

/-- A whole call with nothing in between. -/
def consumeNonce (table : NonceTable) (args : ConsumeArgs) : NonceTable × Bool :=
  match args.check with
  | some nonce => deleteNonce table nonce args.payload
  | none => (table, false)

/-! ### A payload read from its end -/

variable {nonce domain : Text}

theorem colon_notMem_base64Url (h : nonce.all isBase64Url = true) : ':' ∉ nonce := by
  intro hmem
  have hcolon := List.all_eq_true.mp h ':' hmem
  revert hcolon
  decide

theorem colon_notMem_decimal (n : ℕ) : ':' ∉ decimal n := by
  intro hmem
  have hdigit := Nat.isDigit_of_mem_toDigits (by decide) (by decide) hmem
  revert hdigit
  decide

/-- **The round trip.** A payload falls apart into what it was built of. -/
theorem splitPayload_noncePayload (domain : Text) (hnonce : nonce.all isBase64Url = true)
    (issuedAt : ℕ) :
    splitPayload (noncePayload domain nonce issuedAt) =
      some (domain.splitOn ':', nonce, decimal issuedAt) := by
  have hprefix : ':' ∉ PAYLOAD_PREFIX := by decide
  have hsplit : (noncePayload domain nonce issuedAt).splitOn ':' =
      PAYLOAD_PREFIX :: (domain.splitOn ':' ++ [nonce, decimal issuedAt]) := by
    rw [noncePayload, List.splitOn_append_cons_self_of_not_mem hprefix,
      List.splitOn_append_cons_self,
      List.splitOn_append_cons_self_of_not_mem (colon_notMem_base64Url hnonce),
      List.splitOn_eq_singleton (colon_notMem_decimal issuedAt)]
  obtain ⟨last, front, hdomain⟩ : ∃ last front, (domain.splitOn ':').reverse = last :: front :=
    List.exists_cons_of_ne_nil (by simp [List.splitOn_ne_nil])
  rw [splitPayload, hsplit]
  simp only [ne_eq, not_true_eq_false, if_false, List.reverse_append, List.reverse_cons,
    List.reverse_nil, List.nil_append, List.cons_append, hdomain]
  rw [← List.reverse_cons, ← hdomain, List.reverse_reverse]

theorem noncePayload_inj {domain' nonce' : Text} {issuedAt issuedAt' : ℕ}
    (hnonce : nonce.all isBase64Url = true) (hnonce' : nonce'.all isBase64Url = true)
    (h : noncePayload domain nonce issuedAt = noncePayload domain' nonce' issuedAt') :
    domain = domain' ∧ nonce = nonce' ∧ issuedAt = issuedAt' := by
  have hsplit := splitPayload_noncePayload domain hnonce issuedAt
  rw [h, splitPayload_noncePayload domain' hnonce' issuedAt', Option.some.injEq, Prod.mk.injEq,
    Prod.mk.injEq] at hsplit
  obtain ⟨hdomain, hn, htime⟩ := hsplit
  refine ⟨?_, hn.symm, ?_⟩
  · rw [← @List.intercalate_splitOn _ domain _ _ ':', ← hdomain, List.intercalate_splitOn]
  · have hvalue := congrArg (fun s => Nat.ofDigitChars 10 s 0) htime
    simpa only [decimal, Nat.ofDigitChars_ten_toDigits] using hvalue.symm

theorem isIssuedAtStr_decimal {n : ℕ} : isIssuedAtStr (decimal n) = true ↔ n < 10 ^ 15 := by
  have hdigits : (decimal n).all Char.isDigit = true :=
    List.all_eq_true.mpr fun c hc => Nat.isDigit_of_mem_toDigits (by decide) (by decide) hc
  have hpos : 1 ≤ (decimal n).length := Nat.length_toDigits_pos
  rw [isIssuedAtStr, hdigits, Bool.true_and, Bool.and_eq_true, decide_eq_true_eq,
    decide_eq_true_eq, decimal, Nat.length_toDigits_le_iff (by decide) (by decide)]
  exact and_iff_right hpos

theorem ConsumeArgs.check_eq_some {args : ConsumeArgs} {found : Text} {issuedAt : ℕ}
    (hnonce : nonce.all isBase64Url = true)
    (hpayload : args.payload = noncePayload domain nonce issuedAt) :
    args.check = some found ↔ found = nonce ∧ (∀ d ∈ args.expectedDomain, d = domain) ∧
      issuedAt < 10 ^ 15 ∧ issuedAt ≤ args.now ∧ (args.now : ℤ) - issuedAt ≤ args.maxAge := by
  have hsplit := splitPayload_noncePayload domain hnonce issuedAt
  have hdomain : args.domainOk = true ↔ ∀ d ∈ args.expectedDomain, d = domain := by
    rw [ConsumeArgs.domainOk, hpayload, hsplit]
    rcases args.expectedDomain with _ | d
    · simp
    · dsimp only
      rw [beq_iff_eq, List.intercalate_splitOn]
      simp only [Option.mem_def, Option.some.injEq]
      exact ⟨fun h d' hd => hd ▸ h.symm, fun h => (h d rfl).symm⟩
  have hvalue : Nat.ofDigitChars 10 (decimal issuedAt) 0 = issuedAt :=
    Nat.ofDigitChars_ten_toDigits
  rw [ConsumeArgs.check, hpayload, hsplit]
  dsimp only
  rw [hvalue, ← hdomain, ← isIssuedAtStr_decimal]
  rcases args.domainOk with _ | _
  · simp
  · rcases isIssuedAtStr (decimal issuedAt) with _ | _
    · simp
    · simp only [Bool.not_true, Bool.false_eq_true, if_false, true_and]
      split_ifs with hfuture hold
      · simp only [false_iff, not_and]
        omega
      · simp only [false_iff, not_and]
        omega
      · rw [Option.some.injEq, eq_comm]
        exact (and_iff_left ⟨not_lt.mp hfuture, Int.not_lt.mp hold⟩).symm

end DrepTalk
