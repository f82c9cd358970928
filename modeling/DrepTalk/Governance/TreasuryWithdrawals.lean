import DrepTalk.Auth.Signatures
import DrepTalk.Format.Rational

/-!
# Treasury withdrawals

`src/lib/governance/treasuryWithdrawals.ts`: a recipient is a stake address with an amount in ada.
The rows are judged in one pass, which keeps the addresses it has seen, the total and the
withdrawals. On chain the withdrawals are a map, so an address may be listed once.

**Addresses.** The bech32 package is a parameter (`Bech32`). It reads what it writes, in lower or in
upper case, so rows name one reward address exactly where their texts are the same but for the case
(`sameReward_iff`).
-/

namespace DrepTalk

/-- The most recipients that may be listed. -/
def TREASURY_RECIPIENTS_MAX : ℕ := 20

def MAX_LOVELACE : ℤ := 45000000000000000

def STAKE_ADDRESS_MISSING : String := "Enter the recipient's stake address."

def STAKE_ADDRESS_INVALID : String := "This is not a valid stake address."

def STAKE_ADDRESS_WRONG_NETWORK : String := "This stake address belongs to a different network."

def STAKE_ADDRESS_DUPLICATE : String := "This stake address is already listed."

def AMOUNT_INVALID : String := "Enter an amount above 0 with at most 6 decimals."

def TREASURY_NO_RECIPIENTS : String := "Add at least one recipient."

def TREASURY_TOO_MANY : String := "A treasury withdrawal can list at most 20 recipients."

/-! ### Stake addresses -/

/-- The bech32 package, with the limit of the wrappers; where it throws, nothing. -/
structure Bech32 where
  encode : Text → Bytes → Text
  decode : Text → Option (Text × Bytes)

/-- `toLowerCase` and `toUpperCase` of ASCII text. -/
def lowerText (t : Text) : Text := t.map Char.toLower

def upperText (t : Text) : Text := t.map Char.toUpper

/-- The package reads its own encodings, which are in lower case, and those in upper case. -/
structure Bech32.Lawful (b : Bech32) : Prop where
  nil : b.decode [] = none
  reads : ∀ {s p data}, b.decode s = some (p, data) →
    s = b.encode p data ∨ s = upperText (b.encode p data)
  own : ∀ {s p data}, b.decode s = some (p, data) → b.decode (b.encode p data) = some (p, data)
  lower : ∀ {s p data}, b.decode s = some (p, data) →
    lowerText (b.encode p data) = b.encode p data ∧
      lowerText (upperText (b.encode p data)) = b.encode p data

/-- `NetworkConfig`, by what a stake address shows. -/
structure NetworkConfig where
  network : CardanoNetwork
  stakePrefix : Text
  networkId : ℕ

def resolveNetwork : CardanoNetwork → NetworkConfig
  | .mainnet => ⟨.mainnet, "stake".toList, 1⟩
  | .preprod => ⟨.preprod, "stake_test".toList, 0⟩

def STAKE_NETWORKS : List NetworkConfig := [resolveNetwork .mainnet, resolveNetwork .preprod]

inductive StakeKind
  | key
  | script

structure StakeAddressParts where
  stakeAddress : Text
  rewardAddressHex : Text
  kind : StakeKind
  hashHex : Text

def parseStakeAddress (b : Bech32) (input : Text) (network : CardanoNetwork) :
    Except String StakeAddressParts :=
  match b.decode (JsText.trim input) with
  | none => .error STAKE_ADDRESS_INVALID
  | some (p, data) =>
    match STAKE_NETWORKS.find? fun cfg => decide (cfg.stakePrefix = p) with
    | none => .error STAKE_ADDRESS_INVALID
    | some cfg =>
      let header := data.headD 0
      if data.length ≠ 29 then .error STAKE_ADDRESS_INVALID
      else if header >>> 4 ≠ 0xe ∧ header >>> 4 ≠ 0xf then .error STAKE_ADDRESS_INVALID
      else if (header &&& 0x0f).toNat ≠ cfg.networkId then .error STAKE_ADDRESS_INVALID
      else if cfg.network ≠ network then .error STAKE_ADDRESS_WRONG_NETWORK
      else
        .ok ⟨b.encode p data, bytesToHex data, if header >>> 4 = 0xe then .key else .script,
          (bytesToHex data).drop 2⟩

/-! ### Amounts -/

/-- `lovelaceToAdaDecimal` of `src/lib/format/ada.ts`. -/
def lovelaceToAdaDecimal (lovelace : ℤ) : Text :=
  let abs := if lovelace < 0 then -lovelace else lovelace
  let whole := integerText (abs.tdiv 1000000)
  let frac := abs.tmod 1000000
  let sign := if lovelace < 0 then ['-'] else []
  if frac = 0 then sign ++ whole
  else sign ++ whole ++ '.' :: trimZeros (padStartZeros 6 (integerText frac))

/-- The groups of `/^(\d+)(?:\.(\d{1,6}))?$/`. -/
def amountParts (t : Text) : Option (Text × Option Text) :=
  (decimalParts t).filter fun parts => !parts.1.isEmpty && decide ((parts.2.getD []).length ≤ 6)

def parseAdaAmount (input : Text) : Option ℤ :=
  match amountParts (JsText.trim input) with
  | none => none
  | some (whole, frac) =>
    let lovelace : ℤ := digitsValue whole * 1000000 + digitsValue (padEndZeros 6 (frac.getD []))
    if lovelace ≤ 0 ∨ MAX_LOVELACE < lovelace then none else some lovelace

/-! ### The rows -/

structure TreasuryRowInput where
  address : String
  amountAda : String

def EMPTY_TREASURY_ROW : TreasuryRowInput := ⟨"", ""⟩

structure TreasuryRowCheck where
  address : Option StakeAddressParts
  lovelace : Option ℤ
  addressError : Option String
  amountError : Option String

structure TreasuryWithdrawalRow where
  recipient : StakeAddressParts
  lovelace : ℤ

structure TreasuryRowsResult where
  rows : List TreasuryRowCheck
  totalLovelace : ℤ
  result : Except String (List TreasuryWithdrawalRow)

/-- What the pass over the rows has gathered. -/
structure TreasuryPass where
  seen : List Text
  totalLovelace : ℤ
  withdrawals : List TreasuryWithdrawalRow
  checked : List TreasuryRowCheck

/-- The address of a row, or what is wrong with it. -/
def rowAddress (b : Bech32) (network : CardanoNetwork) (seen : List Text) (row : TreasuryRowInput) :
    Except String StakeAddressParts :=
  if JsText.trim row.address.toList = [] then .error STAKE_ADDRESS_MISSING
  else
    match parseStakeAddress b row.address.toList network with
    | .error error => .error error
    | .ok parts =>
      if seen.contains parts.stakeAddress then .error STAKE_ADDRESS_DUPLICATE else .ok parts

def TreasuryPass.next (b : Bech32) (network : CardanoNetwork) (pass : TreasuryPass)
    (row : TreasuryRowInput) : TreasuryPass :=
  let lovelace := parseAdaAmount row.amountAda.toList
  let total := pass.totalLovelace + lovelace.getD 0
  let amountError := if lovelace = none then some AMOUNT_INVALID else none
  match rowAddress b network pass.seen row with
  | .error error =>
    ⟨pass.seen, total, pass.withdrawals, pass.checked ++ [⟨none, lovelace, some error, amountError⟩]⟩
  | .ok parts =>
    ⟨parts.stakeAddress :: pass.seen, total,
      pass.withdrawals ++ (lovelace.map fun amount => ⟨parts, amount⟩).toList,
      pass.checked ++ [⟨some parts, lovelace, none, amountError⟩]⟩

def TreasuryRowCheck.error (check : TreasuryRowCheck) : Option String :=
  check.addressError.or check.amountError

def checkTreasuryRows (b : Bech32) (rows : List TreasuryRowInput) (network : CardanoNetwork) :
    TreasuryRowsResult :=
  let pass := rows.foldl (TreasuryPass.next b network) ⟨[], 0, [], []⟩
  { rows := pass.checked
    totalLovelace := pass.totalLovelace
    result :=
      if rows = [] then .error TREASURY_NO_RECIPIENTS
      else if TREASURY_RECIPIENTS_MAX < rows.length then .error TREASURY_TOO_MANY
      else
        match pass.checked.findSome? TreasuryRowCheck.error with
        | some error => .error error
        | none => .ok pass.withdrawals }

/-! ### What is read of an address -/

/-- The high nibble of the header of a reward address. -/
def StakeKind.nibble : StakeKind → UInt8
  | .key => 0xe
  | .script => 0xf

/-- A reward address of the network: 29 bytes, of which the first says the kind and the network. -/
def StakeAddressParts.OnNetwork (network : CardanoNetwork) (parts : StakeAddressParts) : Prop :=
  ∃ data : Bytes, data.length = 29 ∧ parts.rewardAddressHex = bytesToHex data ∧
    (data.headD 0 &&& 0x0f).toNat = (resolveNetwork network).networkId ∧
    data.headD 0 >>> 4 = parts.kind.nibble ∧ parts.hashHex = bytesToHex data.tail

section

variable {b : Bech32} {network : CardanoNetwork} {input input' : Text}
  {parts parts' : StakeAddressParts}

theorem drop_bytesToHex (data : Bytes) (h : data ≠ []) :
    (bytesToHex data).drop 2 = bytesToHex data.tail := by
  rcases data with _ | ⟨first, rest⟩
  · exact absurd rfl h
  · rfl

theorem network_of_find {p : Text} {cfg : NetworkConfig}
    (hfind : STAKE_NETWORKS.find? (fun cfg => decide (cfg.stakePrefix = p)) = some cfg)
    (hnetwork : cfg.network = network) : cfg = resolveNetwork network ∧ cfg.stakePrefix = p := by
  have hmem := List.mem_of_find?_eq_some hfind
  have hp := List.find?_some hfind
  refine ⟨?_, of_decide_eq_true hp⟩
  subst hnetwork
  rcases List.mem_cons.mp hmem with rfl | hmem
  · rfl
  · rw [List.mem_singleton.mp hmem]
    rfl

theorem parseStakeAddress_ok (h : parseStakeAddress b input network = .ok parts) :
    parts.OnNetwork network ∧ ∃ data,
      b.decode (JsText.trim input) = some ((resolveNetwork network).stakePrefix, data) ∧
      parts.stakeAddress = b.encode (resolveNetwork network).stakePrefix data ∧
      parts.rewardAddressHex = bytesToHex data := by
  rw [parseStakeAddress] at h
  rcases hdecode : b.decode (JsText.trim input) with _ | ⟨p, data⟩
  · rw [hdecode] at h
    cases h
  · rw [hdecode] at h
    dsimp only at h
    rcases hfind : STAKE_NETWORKS.find? (fun cfg => decide (cfg.stakePrefix = p)) with _ | cfg
    · rw [hfind] at h
      cases h
    · rw [hfind] at h
      dsimp only at h
      split_ifs at h with hlength hkind hid hnetwork hkey
      all_goals try cases h
      all_goals
        obtain ⟨rfl, rfl⟩ := network_of_find hfind (not_not.mp hnetwork)
        have hne : data ≠ [] := by
          rintro rfl
          exact hlength (by decide)
        refine ⟨⟨data, not_not.mp hlength, rfl, not_not.mp hid, ?_, drop_bytesToHex data hne⟩,
          data, rfl, rfl, rfl⟩
      · exact hkey
      · exact not_not.mp fun hscript => hkind ⟨hkey, hscript⟩

theorem stakeAddress_eq (hb : b.Lawful) (h : parseStakeAddress b input network = .ok parts) :
    parts.stakeAddress = lowerText (JsText.trim input) := by
  obtain ⟨-, data, hdecode, hstake, -⟩ := parseStakeAddress_ok h
  obtain ⟨hlower, hupper⟩ := hb.lower hdecode
  rw [hstake]
  rcases hb.reads hdecode with heq | heq
  · rw [heq, hlower]
  · rw [heq, hupper]

theorem rewardAddressHex_eq_iff (hb : b.Lawful)
    (h : parseStakeAddress b input network = .ok parts)
    (h' : parseStakeAddress b input' network = .ok parts') :
    parts.rewardAddressHex = parts'.rewardAddressHex ↔ parts.stakeAddress = parts'.stakeAddress := by
  obtain ⟨-, data, hdecode, hstake, hhex⟩ := parseStakeAddress_ok h
  obtain ⟨-, data', hdecode', hstake', hhex'⟩ := parseStakeAddress_ok h'
  rw [hhex, hhex', hstake, hstake', bytesToHex_injective.eq_iff]
  constructor
  · rintro rfl
    rfl
  · intro heq
    have hsame := hb.own hdecode
    rw [heq, hb.own hdecode'] at hsame
    exact (Prod.mk.inj (Option.some.inj hsame)).2.symm

theorem sameReward_iff (hb : b.Lawful) (h : parseStakeAddress b input network = .ok parts)
    (h' : parseStakeAddress b input' network = .ok parts') :
    parts.rewardAddressHex = parts'.rewardAddressHex ↔
      lowerText (JsText.trim input) = lowerText (JsText.trim input') := by
  rw [rewardAddressHex_eq_iff hb h h', stakeAddress_eq hb h, stakeAddress_eq hb h']

end

/-! ### Amounts in ada -/

theorem parseAdaAmount_range {input : Text} {lovelace : ℤ}
    (h : parseAdaAmount input = some lovelace) : 1 ≤ lovelace ∧ lovelace ≤ MAX_LOVELACE := by
  rw [parseAdaAmount] at h
  rcases hparts : amountParts (JsText.trim input) with _ | ⟨whole, frac⟩
  · rw [hparts] at h
    cases h
  · rw [hparts] at h
    dsimp only at h
    split_ifs at h with hout
    cases h
    omega

/-- The digits behind the point: six of them, less the zeros at the end. -/
def lovelaceFraction (frac : ℕ) : Text := trimZeros (padStartZeros 6 (decimal frac))

theorem lovelaceFraction_spec {frac : ℕ} (h : frac < 1000000) :
    (∀ c ∈ lovelaceFraction frac, c.isDigit = true) ∧ (lovelaceFraction frac).length ≤ 6 ∧
      digitsValue (padEndZeros 6 (lovelaceFraction frac)) = frac := by
  have hlength : (padStartZeros 6 (decimal frac)).length = 6 :=
    length_padStartZeros ((Nat.length_toDigits_le_iff (by decide) (by decide)).mpr h)
  have htrimmed : (lovelaceFraction frac).length ≤ (padStartZeros 6 (decimal frac)).length :=
    (List.rdropWhile_prefix _ _).length_le
  have hpad := padEndZeros_trimZeros (padStartZeros 6 (decimal frac))
  rw [hlength] at htrimmed hpad
  refine ⟨fun c hc => ?_, htrimmed, ?_⟩
  · rcases List.mem_append.mp (mem_of_mem_trimZeros hc) with hc | hc
    · rw [List.eq_of_mem_replicate hc]
      rfl
    · exact isDigit_of_mem_decimal hc
  · rw [lovelaceFraction, hpad, digitsValue_padStartZeros, digitsValue_decimal]

theorem lovelaceToAdaDecimal_eq (n : ℕ) :
    lovelaceToAdaDecimal n = decimalText (n / 1000000) (lovelaceFraction (n % 1000000)) := by
  have hneg : ¬(n : ℤ) < 0 := by omega
  have hwhole : (n : ℤ).tdiv 1000000 = (n / 1000000 : ℕ) := rfl
  have hfrac : (n : ℤ).tmod 1000000 = (n % 1000000 : ℕ) := rfl
  obtain ⟨-, -, hvalue⟩ := lovelaceFraction_spec (Nat.mod_lt n (by decide : 0 < 1000000))
  rw [lovelaceToAdaDecimal]
  simp only [if_neg hneg, hwhole, hfrac, integerText_natCast, List.nil_append, Int.natCast_eq_zero]
  by_cases hzero : n % 1000000 = 0
  · have hnone : lovelaceFraction 0 = [] := by decide
    rw [if_pos hzero, hzero, hnone]
    rfl
  · have hsome : lovelaceFraction (n % 1000000) ≠ [] := fun h => by
      rw [h] at hvalue
      exact hzero (hvalue.symm.trans (by decide))
    rw [if_neg hzero, decimalText, if_neg hsome]
    rfl

/-- **Amounts are read back.** -/
theorem parseAdaAmount_lovelaceToAdaDecimal {lovelace : ℤ} (hlow : 1 ≤ lovelace)
    (hhigh : lovelace ≤ MAX_LOVELACE) :
    parseAdaAmount (lovelaceToAdaDecimal lovelace) = some lovelace := by
  obtain ⟨n, rfl⟩ := Int.eq_ofNat_of_zero_le (by omega : 0 ≤ lovelace)
  obtain ⟨hdigits, hlength, hvalue⟩ :=
    lovelaceFraction_spec (Nat.mod_lt n (by decide : 0 < 1000000))
  have hparts : amountParts (decimalText (n / 1000000) (lovelaceFraction (n % 1000000))) =
      some (decimal (n / 1000000), if lovelaceFraction (n % 1000000) = [] then none
        else some (lovelaceFraction (n % 1000000))) := by
    rw [amountParts, decimalParts_decimalText hdigits, Option.filter_some_pos]
    rw [Bool.and_eq_true, Bool.not_eq_true', List.isEmpty_eq_false_iff, decide_eq_true_iff,
      getD_fraction]
    exact ⟨decimal_ne_nil _, hlength⟩
  have hsum : (digitsValue (decimal (n / 1000000)) : ℤ) * 1000000 +
      digitsValue (padEndZeros 6 (lovelaceFraction (n % 1000000))) = n := by
    rw [digitsValue_decimal, hvalue]
    omega
  rw [parseAdaAmount, lovelaceToAdaDecimal_eq, trim_decimalText hdigits, hparts]
  dsimp only
  rw [getD_fraction, hsum, if_neg (by omega)]

/-! ### The pass over the rows -/

/-- What a row says, once both fields are read. -/
def Reads (b : Bech32) (network : CardanoNetwork) (row : TreasuryRowInput)
    (w : TreasuryWithdrawalRow) : Prop :=
  parseStakeAddress b row.address.toList network = .ok w.recipient ∧
    parseAdaAmount row.amountAda.toList = some w.lovelace

def TreasuryPass.Clean (pass : TreasuryPass) : Prop := ∀ check ∈ pass.checked, check.error = none

/-- The withdrawals are to different addresses, none of which has been seen. -/
def Fresh (seen : List Text) (ws : List TreasuryWithdrawalRow) : Prop :=
  (ws.map fun w => w.recipient.stakeAddress).Nodup ∧
    ∀ w ∈ ws, w.recipient.stakeAddress ∉ seen

/-- The pass, once these withdrawals have been added. -/
def TreasuryPass.Adds (pass pass' : TreasuryPass) (ws : List TreasuryWithdrawalRow) : Prop :=
  pass'.withdrawals = pass.withdrawals ++ ws ∧
    pass'.totalLovelace = pass.totalLovelace + (ws.map (·.lovelace)).sum

section

variable {b : Bech32} {network : CardanoNetwork} {pass : TreasuryPass} {row : TreasuryRowInput}
  {rows : List TreasuryRowInput} {w : TreasuryWithdrawalRow} {ws : List TreasuryWithdrawalRow}

theorem rowAddress_eq_ok (hb : b.Lawful) {seen : List Text} {parts : StakeAddressParts} :
    rowAddress b network seen row = .ok parts ↔
      parseStakeAddress b row.address.toList network = .ok parts ∧ parts.stakeAddress ∉ seen := by
  rw [rowAddress]
  split_ifs with hempty
  · have herror : parseStakeAddress b row.address.toList network = .error STAKE_ADDRESS_INVALID := by
      rw [parseStakeAddress, hempty, hb.nil]
    simp [herror]
  · rcases parseStakeAddress b row.address.toList network with error | parsed
    · simp
    · dsimp only
      split_ifs with hseen
      · refine ⟨fun h => ?_, fun h => ?_⟩
        · cases h
        · obtain rfl := Except.ok.inj h.1
          exact absurd (List.contains_iff_mem.mp hseen) h.2
      · refine ⟨fun h => ⟨h, ?_⟩, fun h => h.1⟩
        obtain rfl := Except.ok.inj h
        exact fun hmem => hseen (List.contains_iff_mem.mpr hmem)

theorem TreasuryPass.next_cases (hb : b.Lawful) (network : CardanoNetwork) (pass : TreasuryPass)
    (row : TreasuryRowInput) :
    (∃ w, Reads b network row w ∧ w.recipient.stakeAddress ∉ pass.seen ∧
      pass.next b network row =
        ⟨w.recipient.stakeAddress :: pass.seen, pass.totalLovelace + w.lovelace,
          pass.withdrawals ++ [w],
          pass.checked ++ [⟨some w.recipient, some w.lovelace, none, none⟩]⟩) ∨
    ((∀ w, Reads b network row w → w.recipient.stakeAddress ∈ pass.seen) ∧
      ∃ check ∈ (pass.next b network row).checked, check.error ≠ none) := by
  rw [TreasuryPass.next]
  rcases haddress : rowAddress b network pass.seen row with error | parts
  · refine .inr ⟨fun w hw => ?_, _, List.mem_append_right _ (List.mem_singleton_self _), ?_⟩
    · by_contra hnot
      rw [(rowAddress_eq_ok hb).mpr ⟨hw.1, hnot⟩] at haddress
      cases haddress
    · exact Option.some_ne_none error
  · obtain ⟨hparse, hseen⟩ := (rowAddress_eq_ok hb).mp haddress
    rcases hamount : parseAdaAmount row.amountAda.toList with _ | amount
    · refine .inr ⟨fun w hw => ?_, _, List.mem_append_right _ (List.mem_singleton_self _), ?_⟩
      · rw [hw.2] at hamount
        cases hamount
      · exact Option.some_ne_none AMOUNT_INVALID
    · exact .inl ⟨⟨parts, amount⟩, ⟨hparse, hamount⟩, hseen, rfl⟩

theorem TreasuryPass.checked_next (pass : TreasuryPass) (row : TreasuryRowInput) :
    pass.checked <+: (pass.next b network row).checked := by
  rw [TreasuryPass.next]
  rcases rowAddress b network pass.seen row with error | parts <;> exact List.prefix_append _ _

theorem TreasuryPass.checked_foldl (pass : TreasuryPass) (rows : List TreasuryRowInput) :
    pass.checked <+: (rows.foldl (TreasuryPass.next b network) pass).checked := by
  induction rows generalizing pass with
  | nil => exact List.prefix_rfl
  | cons row rest ih => exact (pass.checked_next row).trans (ih _)

/-- **A clean pass** has read every row, to an address of its own. -/
theorem TreasuryPass.clean_foldl (hb : b.Lawful)
    (h : (rows.foldl (TreasuryPass.next b network) pass).Clean) :
    ∃ ws, List.Forall₂ (Reads b network) rows ws ∧ Fresh pass.seen ws ∧
      pass.Adds (rows.foldl (TreasuryPass.next b network) pass) ws := by
  induction rows generalizing pass with
  | nil => exact ⟨[], .nil, ⟨List.nodup_nil, by simp⟩, by simp [Adds]⟩
  | cons row rest ih =>
    rcases pass.next_cases hb network row with
      ⟨w, hw, hseen, hnext⟩ | ⟨-, check, hcheck, hne⟩
    · obtain ⟨ws, hws, ⟨hnodup, hfresh⟩, hadded, htotal⟩ := ih h
      rw [hnext] at hfresh hadded htotal
      refine ⟨w :: ws, .cons hw hws,
        ⟨List.nodup_cons.mpr ⟨fun hmem => ?_, hnodup⟩, fun w' hw' => ?_⟩, ?_, ?_⟩
      · obtain ⟨w', hw', heq⟩ := List.mem_map.mp hmem
        exact hfresh w' hw' (heq ▸ List.mem_cons_self)
      · rcases List.mem_cons.mp hw' with rfl | hw'
        · exact hseen
        · exact fun hmem => hfresh w' hw' (List.mem_cons_of_mem _ hmem)
      · rw [List.foldl_cons, hnext, hadded, List.append_assoc, List.singleton_append]
      · rw [List.foldl_cons, hnext, htotal, List.map_cons, List.sum_cons, Int.add_assoc]
    · exact absurd (h check ((TreasuryPass.checked_foldl _ rest).mem hcheck)) hne

theorem TreasuryPass.clean_of_reads (hb : b.Lawful) (hclean : pass.Clean)
    (hws : List.Forall₂ (Reads b network) rows ws) (hfresh : Fresh pass.seen ws) :
    (rows.foldl (TreasuryPass.next b network) pass).Clean := by
  induction hws generalizing pass with
  | nil => exact hclean
  | @cons row w rest ws hw _ ih =>
    obtain ⟨hnodup, hseen⟩ := hfresh
    obtain ⟨hhead, hrest⟩ := List.nodup_cons.mp hnodup
    rcases pass.next_cases hb network row with ⟨w', hw', -, hnext⟩ | ⟨hall, -⟩
    · have hsame : w' = w := by
        have hrecipient := Except.ok.inj (hw'.1.symm.trans hw.1)
        have hlovelace := Option.some.inj (hw'.2.symm.trans hw.2)
        cases w
        cases w'
        cases hrecipient
        cases hlovelace
        rfl
      subst hsame
      rw [List.foldl_cons, hnext]
      refine ih (fun check hcheck => ?_) ⟨hrest, fun w hmem hbefore => ?_⟩
      · rcases List.mem_append.mp hcheck with hcheck | hcheck
        · exact hclean check hcheck
        · rw [List.mem_singleton.mp hcheck]
          rfl
      · rcases List.mem_cons.mp hbefore with heq | hbefore
        · exact hhead (List.mem_map.mpr ⟨w, hmem, heq⟩)
        · exact hseen w (List.mem_cons_of_mem _ hmem) hbefore
    · exact absurd (hall w hw) (hseen w List.mem_cons_self)

theorem checkTreasuryRows_eq_ok :
    (checkTreasuryRows b rows network).result = .ok ws ↔
      (1 ≤ rows.length ∧ rows.length ≤ 20) ∧
      (rows.foldl (TreasuryPass.next b network) ⟨[], 0, [], []⟩).Clean ∧
      (rows.foldl (TreasuryPass.next b network) ⟨[], 0, [], []⟩).withdrawals = ws := by
  rw [checkTreasuryRows]
  generalize rows.foldl (TreasuryPass.next b network) ⟨[], 0, [], []⟩ = pass
  split_ifs with hempty hmany
  · simp [hempty]
  · refine ⟨fun h => ?_, fun h => absurd h.1.2 (not_le.mpr hmany)⟩
    cases h
  · have hlength : 1 ≤ rows.length ∧ rows.length ≤ 20 :=
      ⟨List.length_pos_iff.mpr hempty, not_lt.mp hmany⟩
    rw [TreasuryPass.Clean, ← List.findSome?_eq_none_iff]
    rcases pass.checked.findSome? TreasuryRowCheck.error with _ | error
    · simp [hlength]
    · simp

theorem exists_forall₂_reads
    (haddress : ∀ row ∈ rows, ∃ parts, parseStakeAddress b row.address.toList network = .ok parts)
    (hamount : ∀ row ∈ rows, ∃ lovelace, parseAdaAmount row.amountAda.toList = some lovelace) :
    ∃ ws, List.Forall₂ (Reads b network) rows ws := by
  induction rows with
  | nil => exact ⟨[], .nil⟩
  | cons row rest ih =>
    obtain ⟨parts, hparts⟩ := haddress row List.mem_cons_self
    obtain ⟨lovelace, hlovelace⟩ := hamount row List.mem_cons_self
    obtain ⟨ws, hws⟩ := ih (fun row hmem => haddress row (List.mem_cons_of_mem _ hmem))
      fun row hmem => hamount row (List.mem_cons_of_mem _ hmem)
    exact ⟨⟨parts, lovelace⟩ :: ws, .cons ⟨hparts, hlovelace⟩ hws⟩

/-- The texts of two addresses are the same up to their case. -/
def SameText (row row' : TreasuryRowInput) : Prop :=
  lowerText (JsText.trim row.address.toList) = lowerText (JsText.trim row'.address.toList)

theorem stakeAddresses_eq (hb : b.Lawful) (hws : List.Forall₂ (Reads b network) rows ws) :
    ws.map (fun w => w.recipient.stakeAddress) =
      rows.map fun row => lowerText (JsText.trim row.address.toList) := by
  induction hws with
  | nil => rfl
  | cons hw _ ih => rw [List.map_cons, List.map_cons, ih, stakeAddress_eq hb hw.1]

theorem exists_of_mem_forall₂ {α β : Type} {r : α → β → Prop} {xs : List α} {ys : List β} {y : β}
    (h : List.Forall₂ r xs ys) (hy : y ∈ ys) : ∃ x ∈ xs, r x y := by
  induction h with
  | nil => cases hy
  | cons hfirst _ ih =>
    rcases List.mem_cons.mp hy with rfl | hy
    · exact ⟨_, List.mem_cons_self, hfirst⟩
    · obtain ⟨x, hx, hr⟩ := ih hy
      exact ⟨x, List.mem_cons_of_mem _ hx, hr⟩

theorem rewardAddresses_pairwise (hb : b.Lawful) (hws : List.Forall₂ (Reads b network) rows ws)
    (hnodup : (ws.map fun w => w.recipient.stakeAddress).Nodup) :
    ws.Pairwise fun w w' => w.recipient.rewardAddressHex ≠ w'.recipient.rewardAddressHex := by
  refine (List.pairwise_map.mp hnodup).imp_of_mem fun {w w'} hw hw' hne heq => ?_
  obtain ⟨row, -, hreads⟩ := exists_of_mem_forall₂ hws hw
  obtain ⟨row', -, hreads'⟩ := exists_of_mem_forall₂ hws hw'
  exact hne ((rewardAddressHex_eq_iff hb hreads.1 hreads'.1).mp heq)

/-- **The check of the rows** passes exactly where one to twenty rows can be read, to reward
addresses of their own; the withdrawals are then what the rows say, in their order. -/
theorem checkTreasuryRows_right (hb : b.Lawful) (rows : List TreasuryRowInput)
    (network : CardanoNetwork) :
    (∀ ws, (checkTreasuryRows b rows network).result = .ok ws →
      List.Forall₂ (Reads b network) rows ws ∧
      (ws.Pairwise fun w w' => w.recipient.rewardAddressHex ≠ w'.recipient.rewardAddressHex) ∧
      (∀ w ∈ ws, w.recipient.OnNetwork network ∧ 1 ≤ w.lovelace ∧ w.lovelace ≤ MAX_LOVELACE) ∧
      (ws.map (·.lovelace)).sum = (checkTreasuryRows b rows network).totalLovelace) ∧
    ((∃ ws, (checkTreasuryRows b rows network).result = .ok ws) ↔
      (1 ≤ rows.length ∧ rows.length ≤ 20) ∧
      (∀ row ∈ rows, ∃ parts, parseStakeAddress b row.address.toList network = .ok parts) ∧
      (rows.Pairwise fun row row' => ¬SameText row row') ∧
      ∀ row ∈ rows, ∃ lovelace, parseAdaAmount row.amountAda.toList = some lovelace) ∧
    (∀ {row row' : TreasuryRowInput} {parts parts' : StakeAddressParts},
      parseStakeAddress b row.address.toList network = .ok parts →
      parseStakeAddress b row'.address.toList network = .ok parts' →
      (parts.rewardAddressHex = parts'.rewardAddressHex ↔ SameText row row')) ∧
    ∀ lovelace : ℤ, 1 ≤ lovelace → lovelace ≤ MAX_LOVELACE →
      parseAdaAmount (lovelaceToAdaDecimal lovelace) = some lovelace := by
  refine ⟨fun ws h => ?_, ⟨fun ⟨ws, h⟩ => ?_, fun ⟨hlength, haddress, hdistinct, hamount⟩ => ?_⟩,
    fun h h' => sameReward_iff hb h h', fun lovelace => parseAdaAmount_lovelaceToAdaDecimal⟩
  · obtain ⟨-, hclean, hgathered⟩ := checkTreasuryRows_eq_ok.mp h
    obtain ⟨ws', hws, ⟨hnodup, -⟩, hadded, htotal⟩ := TreasuryPass.clean_foldl hb hclean
    obtain rfl : ws' = ws := by rw [← hgathered, hadded]; rfl
    refine ⟨hws, rewardAddresses_pairwise hb hws hnodup, fun w hw => ?_, ?_⟩
    · obtain ⟨row, -, hreads⟩ := exists_of_mem_forall₂ hws hw
      exact ⟨(parseStakeAddress_ok hreads.1).1, parseAdaAmount_range hreads.2⟩
    · exact (htotal.trans (Int.zero_add _)).symm
  · obtain ⟨hlength, hclean, -⟩ := checkTreasuryRows_eq_ok.mp h
    obtain ⟨ws', hws, ⟨hnodup, -⟩, -⟩ := TreasuryPass.clean_foldl hb hclean
    rw [stakeAddresses_eq hb hws] at hnodup
    refine ⟨hlength, fun row hrow => ?_, List.pairwise_map.mp hnodup, fun row hrow => ?_⟩
    · obtain ⟨w, -, hw⟩ := exists_of_mem_forall₂ (List.Forall₂.flip hws) hrow
      exact ⟨_, hw.1⟩
    · obtain ⟨w, -, hw⟩ := exists_of_mem_forall₂ (List.Forall₂.flip hws) hrow
      exact ⟨_, hw.2⟩
  · -- the rows can be read, so the pass finds an error only in an address seen before
    obtain ⟨ws, hws⟩ := exists_forall₂_reads haddress hamount
    have hfresh : Fresh [] ws := by
      refine ⟨?_, fun _ _ => List.not_mem_nil⟩
      rw [stakeAddresses_eq hb hws]
      exact List.pairwise_map.mpr hdistinct
    exact ⟨_, checkTreasuryRows_eq_ok.mpr ⟨hlength,
      TreasuryPass.clean_of_reads hb nofun hws hfresh, rfl⟩⟩

end

/-! ### Two recipients -/

/-- A key and a script on mainnet, with their addresses. -/
def sampleAccounts : List (Text × Bytes) :=
  [("stake1uyqqqqqqqqqqqqqqqqqqqqqqqqqqqqqqqqqqqqqqqqqqqqq28lj8u".toList,
      0xe1 :: List.replicate 28 0),
    ("stake17yrswpc8qurswpc8qurswpc8qurswpc8qurswpc8qurswpcuyul02".toList,
      0xf1 :: List.replicate 28 7)]

def sampleBech32 : Bech32 where
  encode p data :=
    ((sampleAccounts.find? fun account => decide (account.2 = data)).map (·.1)).getD (p ++ ['1'])
  decode s :=
    (sampleAccounts.find? fun account => decide (s = account.1 ∨ s = upperText account.1)).map
      fun account => ("stake".toList, account.2)

theorem sampleBech32_lawful : sampleBech32.Lawful := by
  have hdecode : ∀ {s p data}, sampleBech32.decode s = some (p, data) → ∃ account ∈ sampleAccounts,
      (s = account.1 ∨ s = upperText account.1) ∧ p = "stake".toList ∧ data = account.2 := by
    intro s p data h
    obtain ⟨account, hfind, hpair⟩ := Option.map_eq_some_iff.mp h
    cases hpair
    have hs := List.find?_some hfind
    exact ⟨account, List.mem_of_find?_eq_some hfind, of_decide_eq_true hs, rfl, rfl⟩
  have htable : ∀ account ∈ sampleAccounts,
      sampleBech32.encode "stake".toList account.2 = account.1 ∧
      sampleBech32.decode account.1 = some ("stake".toList, account.2) ∧
      lowerText account.1 = account.1 ∧ lowerText (upperText account.1) = account.1 := by
    decide +kernel
  constructor
  · decide +kernel
  · intro s p data h
    obtain ⟨account, hmem, hs, rfl, rfl⟩ := hdecode h
    rwa [(htable account hmem).1]
  · intro s p data h
    obtain ⟨account, hmem, -, rfl, rfl⟩ := hdecode h
    obtain ⟨hencode, hown, -⟩ := htable account hmem
    rw [hencode, hown]
  · intro s p data h
    obtain ⟨account, hmem, -, rfl, rfl⟩ := hdecode h
    obtain ⟨hencode, -, hlower⟩ := htable account hmem
    rwa [hencode]

def sampleTreasuryRows : List TreasuryRowInput :=
  [⟨" stake1uyqqqqqqqqqqqqqqqqqqqqqqqqqqqqqqqqqqqqqqqqqqqqq28lj8u", "1000.5"⟩,
    ⟨"STAKE17YRSWPC8QURSWPC8QURSWPC8QURSWPC8QURSWPC8QURSWPCUYUL02", "0.000001"⟩]

theorem checkTreasuryRows_right_two :
    ∃ ws, (checkTreasuryRows sampleBech32 sampleTreasuryRows .mainnet).result = .ok ws ∧
      (ws.map (·.lovelace)).sum =
        (checkTreasuryRows sampleBech32 sampleTreasuryRows .mainnet).totalLovelace ∧
      parseAdaAmount (lovelaceToAdaDecimal 1000500001) = some 1000500001 := by
  obtain ⟨hright, hiff, -, hamounts⟩ :=
    checkTreasuryRows_right sampleBech32_lawful sampleTreasuryRows .mainnet
  have haddresses : ∀ row ∈ sampleTreasuryRows,
      (parseStakeAddress sampleBech32 row.address.toList .mainnet).toOption.isSome = true := by
    decide +kernel
  have hamountsRead : ∀ row ∈ sampleTreasuryRows,
      (parseAdaAmount row.amountAda.toList).isSome = true := by
    decide +kernel
  have htexts : (sampleTreasuryRows.map fun row =>
      lowerText (JsText.trim row.address.toList)).Nodup := by
    decide +kernel
  have hok : ∃ ws, (checkTreasuryRows sampleBech32 sampleTreasuryRows .mainnet).result = .ok ws := by
    refine hiff.mpr ⟨by decide, fun row hrow => ?_, List.pairwise_map.mp htexts,
      fun row hrow => Option.isSome_iff_exists.mp (hamountsRead row hrow)⟩
    have hread := haddresses row hrow
    rcases hparse : parseStakeAddress sampleBech32 row.address.toList .mainnet with error | parts
    · rw [hparse] at hread
      cases hread
    · exact ⟨parts, rfl⟩
  obtain ⟨ws, hws⟩ := hok
  exact ⟨ws, hws, (hright ws hws).2.2.2, hamounts _ (by decide) (by decide)⟩

end DrepTalk
