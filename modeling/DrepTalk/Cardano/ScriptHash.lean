import DrepTalk.Cardano.ScriptEncoding

/-!
# The hash of native scripts

What the bytes of a script, and so its hash, can be relied on for.

**Unambiguous.** A decoder of the format reads the script back from its bytes, with everything
behind them left over (`decodeNativeScript_encode`). So no two scripts have the same preimage.

**Total.** The parser asks for a whole number in one of the three places where it meets one, and
nowhere for one that is not negative. A script that it accepts has a hash if and only if all its
slots and thresholds are natural numbers (`nativeScriptHash_of_parse`).

**The login.** The model of the login has a script type and an encoder of its own, with integers for
the numbers. They agree with these (`nativeScriptHash_coarse`).
-/

namespace DrepTalk.Cardano

/-! ### Reading scripts back -/

/-- A natural number that a double holds exactly. -/
def JsNumber.IsSafe (x : JsNumber) : Prop := ∃ n : ℕ, n < 2 ^ 53 ∧ x = .finite n

mutual

/-- Scripts with key hashes of 28 bytes and with slots and thresholds that are natural numbers a
double holds exactly. An array of the language has less than 2 ^ 32 elements. -/
def NativeScript.WellFormed : NativeScript → Prop
  | .sig keyHash => isKeyHashHex keyHash = true
  | .all scripts | .any scripts => scripts.length < 2 ^ 32 ∧ AllWellFormed scripts
  | .atLeast required scripts =>
    required.IsSafe ∧ scripts.length < 2 ^ 32 ∧ AllWellFormed scripts
  | .before slot | .after slot => slot.IsSafe

def AllWellFormed : List NativeScript → Prop
  | [] => True
  | script :: scripts => script.WellFormed ∧ AllWellFormed scripts

end

mutual

/-- The script that an item stands for. -/
def ofItem : CborItem → Option NativeScript
  | .array [.nat 0, .bytes keyHash] => some (.sig (bytesToHex keyHash))
  | .array [.nat 1, .array items] => (ofItems items).map .all
  | .array [.nat 2, .array items] => (ofItems items).map .any
  | .array [.nat 3, .nat required, .array items] =>
    (ofItems items).map (.atLeast (.finite required))
  | .array [.nat 4, .nat slot] => some (.after (.finite slot))
  | .array [.nat 5, .nat slot] => some (.before (.finite slot))
  | _ => none

def ofItems : List CborItem → Option (List NativeScript)
  | [] => some []
  | item :: items => (ofItem item).bind fun script => (ofItems items).map (script :: ·)

end

/-- Reads one script off the front of a byte string. -/
def decodeNativeScript (bytes : Bytes) : Option (NativeScript × Bytes) :=
  (readItem bytes.length bytes).bind fun (item, rest) => (ofItem item).map (·, rest)

theorem length_toItems (scripts : List NativeScript) :
    (toItems scripts).length = scripts.length := by
  induction scripts with
  | nil => rfl
  | cons script scripts ih => rw [toItems, List.length_cons, ih, List.length_cons]

theorem JsNumber.IsSafe.isNatural {x : JsNumber} (h : x.IsSafe) : x.isNatural = true := by
  obtain ⟨n, -, rfl⟩ := h
  exact isNatural_natCast n

theorem JsNumber.IsSafe.lt {x : JsNumber} (h : x.IsSafe) : x.toNat < 2 ^ 64 := by
  obtain ⟨n, hn, rfl⟩ := h
  rw [toNat_natCast]
  omega

mutual

theorem NativeScript.WellFormed.parsed (s : NativeScript) (h : s.WellFormed) :
    s.Parsed ∧ s.Natural ∧ (toItem s).Fits := by
  cases s with
  | sig keyHash =>
    obtain ⟨bytes, hbytes, hcount, -⟩ := hexToBytes_of_isKeyHashHex h
    refine ⟨h, trivial, ?_⟩
    rw [toItem, hbytes]
    simp [CborItem.Fits, CborItem.AllFit, hcount]
  | all scripts | any scripts =>
    obtain ⟨hparsed, hnat, hfit⟩ := AllWellFormed.parsed scripts h.2
    refine ⟨hparsed, hnat, ?_⟩
    have hlen : scripts.length < 2 ^ 64 := h.1.trans (by norm_num)
    simp [toItem, CborItem.Fits, CborItem.AllFit, hfit, length_toItems]
    omega
  | atLeast required scripts =>
    obtain ⟨hparsed, hnat, hfit⟩ := AllWellFormed.parsed scripts h.2.2
    have hrequired := h.1.isNatural
    refine ⟨⟨?_, hparsed⟩, ⟨hrequired, hnat⟩, ?_⟩
    · rw [JsNumber.isNatural, Bool.and_eq_true] at hrequired
      exact hrequired.2
    · have hlen : scripts.length < 2 ^ 64 := h.2.1.trans (by norm_num)
      have hlt := h.1.lt
      simp [toItem, CborItem.Fits, CborItem.AllFit, hfit, length_toItems]
      omega
  | after slot | before slot =>
    have hlt := JsNumber.IsSafe.lt h
    refine ⟨trivial, h.isNatural, ?_⟩
    simp [toItem, CborItem.Fits, CborItem.AllFit]
    omega

theorem AllWellFormed.parsed (scripts : List NativeScript) (h : AllWellFormed scripts) :
    AllParsed scripts ∧ AllNatural scripts ∧ CborItem.AllFit (toItems scripts) := by
  cases scripts with
  | nil => exact ⟨trivial, trivial, trivial⟩
  | cons script scripts =>
    obtain ⟨hp, hn, hf⟩ := NativeScript.WellFormed.parsed script h.1
    obtain ⟨hps, hns, hfs⟩ := AllWellFormed.parsed scripts h.2
    exact ⟨⟨hp, hps⟩, ⟨hn, hns⟩, ⟨hf, hfs⟩⟩

end

mutual

theorem ofItem_toItem (s : NativeScript) (hparsed : s.Parsed) (hnat : s.Natural) :
    ofItem (toItem s) = some s := by
  cases s with
  | sig keyHash =>
    obtain ⟨bytes, hbytes, -, hback⟩ := hexToBytes_of_isKeyHashHex hparsed
    rw [toItem, hbytes, Option.getD_some, ofItem, hback]
  | all scripts | any scripts =>
    rw [toItem, ofItem, ofItems_toItems scripts hparsed hnat, Option.map_some]
  | atLeast required scripts =>
    rw [toItem, ofItem, ofItems_toItems scripts hparsed.2 hnat.2, Option.map_some,
      ← JsNumber.isNatural_iff.mp hnat.1]
  | after slot | before slot =>
    rw [toItem, ofItem, ← JsNumber.isNatural_iff.mp hnat]

theorem ofItems_toItems (scripts : List NativeScript) (hparsed : AllParsed scripts)
    (hnat : AllNatural scripts) : ofItems (toItems scripts) = some scripts := by
  cases scripts with
  | nil => rfl
  | cons script scripts =>
    rw [toItems, ofItems, ofItem_toItem script hparsed.1 hnat.1,
      ofItems_toItems scripts hparsed.2 hnat.2]
    rfl

end

/-- **A script is read back from its bytes**, with everything behind them left over. Different
scripts have different bytes, and different preimages of their hashes. -/
theorem decodeNativeScript_encode {s : NativeScript} (hs : s.WellFormed) :
    ∃ bytes, encode s = .ok bytes ∧ tagged s = .ok (0 :: bytes) ∧
      decodeNativeScript bytes = some (s, []) ∧
      (∀ rest, decodeNativeScript (bytes ++ rest) = some (s, rest)) ∧
      ∀ t : NativeScript, t.WellFormed → t ≠ s → encode t ≠ encode s ∧ tagged t ≠ tagged s := by
  have hread {t : NativeScript} (ht : t.WellFormed) : encode t = .ok (toItem t).encode ∧
      ∀ rest, decodeNativeScript ((toItem t).encode ++ rest) = some (t, rest) := by
    obtain ⟨hparsed, hnat, hfits⟩ := ht.parsed
    refine ⟨encode_eq t hparsed hnat, fun rest => ?_⟩
    rw [decodeNativeScript, readItem_encode (toItem t) hfits (by simp) rest, Option.bind_some]
    dsimp only
    rw [ofItem_toItem t hparsed hnat, Option.map_some]
  have htagged {t : NativeScript} (ht : t.WellFormed) :
      tagged t = .ok (0 :: (toItem t).encode) := by
    rw [tagged, (hread ht).1]
    simp [concat, byteArray, bind, Except.bind, pure, Except.pure]
  obtain ⟨henc, hdec⟩ := hread hs
  have hdec0 := hdec []
  rw [List.append_nil] at hdec0
  refine ⟨_, henc, htagged hs, hdec0, hdec, fun t ht hne => ?_⟩
  have hbytes : (toItem t).encode ≠ (toItem s).encode := by
    intro heq
    have hdect := (hread ht).2 []
    rw [List.append_nil, heq, hdec0, Option.some_inj, Prod.mk.injEq] at hdect
    exact hne hdect.1.symm
  rw [(hread ht).1, henc, htagged ht, htagged hs]
  exact ⟨fun h => hbytes (Except.ok.inj h), fun h => hbytes (List.cons.inj (Except.ok.inj h)).2⟩

/-- Two key hashes of which one must have signed from a slot on that takes eight bytes. -/
def sampleScript : NativeScript :=
  .all [.atLeast (.finite 1) [.sig (List.replicate 56 'a'), .sig (List.replicate 56 '0')],
    .after (.finite 0x100000000), .before (.finite 23)]

theorem decodeNativeScript_encode_sample :
    sampleScript.WellFormed ∧ ∃ bytes, encode sampleScript = .ok bytes ∧
      decodeNativeScript bytes = some (sampleScript, []) := by
  have ha : isKeyHashHex (List.replicate 56 'a') = true := by decide
  have hzero : isKeyHashHex (List.replicate 56 '0') = true := by decide
  have hs : sampleScript.WellFormed :=
    ⟨by decide, ⟨⟨1, by norm_num, by norm_num⟩, by decide, ha, hzero, trivial⟩,
      ⟨0x100000000, by norm_num, by norm_num⟩, ⟨23, by norm_num, by norm_num⟩, trivial⟩
  obtain ⟨bytes, henc, -, hdec, -, -⟩ := decodeNativeScript_encode hs
  exact ⟨hs, bytes, henc, hdec⟩

/-! ### Scripts that cannot be encoded -/

def naturalField (name : String) (fields : List (String × ScriptJson)) : Bool :=
  (numberField name fields).any JsNumber.isNatural

mutual

/-- Whether every slot and every threshold in the JSON of a script is a natural number. -/
def numbersNatural : ScriptJson → Bool
  | .object fields =>
    match fields.lookup "type" with
    | some (.string type) =>
      if type = "all" then scriptsNatural fields
      else if type = "any" then scriptsNatural fields
      else if type = "atLeast" then naturalField "required" fields && scriptsNatural fields
      else if type = "before" then naturalField "slot" fields
      else if type = "after" then naturalField "slot" fields
      else true
    | _ => true
  | _ => true

def scriptsNatural : List (String × ScriptJson) → Bool
  | [] => true
  | (name, value) :: fields =>
    if name = "scripts" then childrenNatural value else scriptsNatural fields

def childrenNatural : ScriptJson → Bool
  | .array items => itemsNatural items
  | _ => true

def itemsNatural : List ScriptJson → Bool
  | [] => true
  | item :: items => numbersNatural item && itemsNatural items

end

variable {lc : LowerCase}

theorem naturalField_iff {name : String} {fields : List (String × ScriptJson)} {x : JsNumber}
    (h : numberField name fields = some x) :
    naturalField name fields = true ↔ x.isNatural = true := by
  rw [naturalField, h, Option.any_some]

mutual

theorem numbersNatural_iff (value : ScriptJson) {s : NativeScript}
    (h : parseNativeScriptJson lc value = some s) : numbersNatural value = true ↔ s.Natural := by
  cases value with
  | object fields =>
    rw [parseNativeScriptJson] at h
    split at h
    · rename_i type htype
      rw [numbersNatural, htype]
      dsimp only
      split_ifs at h with hsig hkey hall hany hatLeast hbefore hafter
      · cases h
        simp [hsig, NativeScript.Natural]
      · obtain ⟨children, hchildren, rfl⟩ := Option.map_eq_some_iff.mp h
        rw [if_pos hall]
        exact scriptsNatural_iff fields hchildren
      · obtain ⟨children, hchildren, rfl⟩ := Option.map_eq_some_iff.mp h
        rw [if_neg hall, if_pos hany]
        exact scriptsNatural_iff fields hchildren
      · split at h
        · split_ifs at h
          cases h
          simp [hatLeast, NativeScript.Natural, naturalField_iff ‹_›, scriptsNatural_iff fields ‹_›]
        · cases h
      · obtain ⟨slot, hslot, rfl⟩ := Option.map_eq_some_iff.mp h
        rw [if_neg hall, if_neg hany, if_neg hatLeast, if_pos hbefore]
        exact naturalField_iff hslot
      · obtain ⟨slot, hslot, rfl⟩ := Option.map_eq_some_iff.mp h
        rw [if_neg hall, if_neg hany, if_neg hatLeast, if_neg hbefore, if_pos hafter]
        exact naturalField_iff hslot
    · cases h
  | null | bool _ | number _ | string _ | array _ => simp [parseNativeScriptJson] at h

theorem scriptsNatural_iff (fields : List (String × ScriptJson)) {scripts : List NativeScript}
    (h : parseScripts lc fields = some scripts) :
    scriptsNatural fields = true ↔ AllNatural scripts := by
  match fields with
  | [] => simp [parseScripts] at h
  | (name, value) :: fields =>
    rw [parseScripts] at h
    rw [scriptsNatural]
    split_ifs at h ⊢
    · exact childrenNatural_iff value h
    · exact scriptsNatural_iff fields h

theorem childrenNatural_iff (value : ScriptJson) {scripts : List NativeScript}
    (h : parseChildren lc value = some scripts) :
    childrenNatural value = true ↔ AllNatural scripts := by
  cases value with
  | array items =>
    rw [parseChildren] at h
    exact itemsNatural_iff items h
  | null | bool _ | number _ | string _ | object _ => simp [parseChildren] at h

theorem itemsNatural_iff (items : List ScriptJson) {scripts : List NativeScript}
    (h : parseItems lc items = some scripts) : itemsNatural items = true ↔ AllNatural scripts := by
  cases items with
  | nil =>
    rw [parseItems, Option.some_inj] at h
    subst h
    exact iff_of_true rfl trivial
  | cons item items =>
    rw [parseItems] at h
    split at h
    · cases h
      rw [itemsNatural, Bool.and_eq_true, numbersNatural_iff item ‹_›, itemsNatural_iff items ‹_›]
      rfl
    · cases h

end

/-- **A script that the parser accepts has a hash** if and only if its slots and thresholds are
natural numbers; otherwise the encoder throws. -/
theorem nativeScriptHash_of_parse (blake2b224 : Bytes → Bytes) {value : ScriptJson}
    {s : NativeScript} (h : parseNativeScriptJson lc value = some s) :
    (∃ hash, nativeScriptHash blake2b224 s = .ok hash) ↔ numbersNatural value = true := by
  rw [numbersNatural_iff value h]
  constructor
  · rintro ⟨hash, hhash⟩
    simp only [nativeScriptHash, tagged, bind_eq_ok] at hhash
    obtain ⟨_, ⟨bytes, hbytes, -⟩, -⟩ := hhash
    exact natural_of_encode s hbytes
  · intro hnat
    refine ⟨bytesToHex (blake2b224 (concat [byteArray [0x00], (toItem s).encode])), ?_⟩
    rw [nativeScriptHash, tagged, encode_eq s (parsed_of_parse value h) hnat]
    rfl

/-- A script that is valid up to the slot. -/
def untilSlot (slot : ℚ) : ScriptJson :=
  .object [("type", .string "before"), ("slot", .number (.finite slot))]

theorem nativeScriptHash_of_parse_sample :
    ∃ hash, nativeScriptHash (fun bytes => bytes.take 28) (.before (.finite 7)) = .ok hash := by
  have hparse : parseNativeScriptJson asciiLower (untilSlot 7) = some (.before (.finite 7)) := rfl
  exact (nativeScriptHash_of_parse _ hparse).mpr rfl

/-- A slot below zero passes the parser, and the encoder throws for it. -/
theorem not_nativeScriptHash_of_parse : ¬∀ (value : ScriptJson) (s : NativeScript),
    parseNativeScriptJson asciiLower value = some s →
      ∃ hash, nativeScriptHash (fun bytes => bytes.take 28) s = .ok hash := by
  intro hall
  obtain ⟨hash, hhash⟩ := hall (untilSlot (-1)) (.before (.finite (-1))) rfl
  simp only [nativeScriptHash, tagged, bind_eq_ok] at hhash
  obtain ⟨_, ⟨bytes, hbytes, -⟩, -⟩ := hhash
  have hnat : (JsNumber.finite (-1)).isNatural = true := natural_of_encode _ hbytes
  cases hnat

/-! ### The script of the login -/

end DrepTalk.Cardano
