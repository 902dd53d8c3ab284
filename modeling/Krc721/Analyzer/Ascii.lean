import Krc721.Analyzer.ListingScript

/-! The crates on ASCII text: the opcodes and the builder of scripts, the case mappings of the
letters, and JSON objects of plain strings. The promises that the analyzer relies on hold of
them. -/

set_option autoImplicit false

namespace Krc721.Ascii

open SymbolStream

/-! Scripts. -/

def OpPushData4 : ℕ := 0x4e

def malformedPush (length available : ℕ) : TxScriptError :=
  ⟨"opcode requires " ++ toString length ++ " bytes, but script only has " ++
    toString available ++ " remaining"⟩

/-- The data of a push; a push that is cut short exhausts the script. -/
def takeData (value length : ℕ) (rest : List ℕ) : Except TxScriptError Opcode × List ℕ :=
  if rest.length < length then (.error (malformedPush length rest.length), [])
  else (.ok ⟨value, rest.take length, true, length = 0⟩, rest.drop length)

def nextOpcode (value : ℕ) (rest : List ℕ) : Except TxScriptError Opcode × List ℕ :=
  if value < OpPushData1 then takeData value value rest
  else if value = OpPushData1 then
    match rest with
    | length :: rest => takeData value length rest
    | [] => (.error (malformedPush 1 0), [])
  else if value = OpPushData2 then
    match rest with
    | low :: high :: rest => takeData value (low + 256 * high) rest
    | _ => (.error (malformedPush 2 rest.length), [])
  else if value = OpPushData4 then
    match rest with
    | b0 :: b1 :: b2 :: b3 :: rest =>
        takeData value (b0 + 256 * b1 + 65536 * b2 + 16777216 * b3) rest
    | _ => (.error (malformedPush 4 rest.length), [])
  else (.ok ⟨value, [], value ≤ Op16, true⟩, rest)

theorem length_takeData_le (value length : ℕ) (rest : List ℕ) :
    (takeData value length rest).2.length ≤ rest.length := by
  unfold takeData
  split <;> simp

theorem length_nextOpcode_le (value : ℕ) (rest : List ℕ) :
    (nextOpcode value rest).2.length ≤ rest.length := by
  unfold nextOpcode
  split
  · exact length_takeData_le _ _ _
  · split
    · split
      · exact (length_takeData_le _ _ _).trans (Nat.le_succ _)
      · exact Nat.zero_le _
    · split
      · split
        · refine (length_takeData_le _ _ _).trans ?_
          simp only [List.length_cons]
          omega
        · exact Nat.zero_le _
      · split
        · split
          · refine (length_takeData_le _ _ _).trans ?_
            simp only [List.length_cons]
            omega
          · exact Nat.zero_le _
        · exact le_rfl

def deserializeNextOpcode : Reader ℕ (Except TxScriptError Opcode) where
  next := nextOpcode
  rest_le := length_nextOpcode_le

/-- The code of the shortest push: small numbers have opcodes of their own. -/
def canonicalPush : List ℕ → List ℕ
  | [] => [OpFalse]
  | [byte] =>
      if byte = 0 then [OpFalse]
      else if byte ≤ 16 then [OpTrue + byte - 1]
      else if byte = 0x81 then [Op1Negate]
      else dataPush [byte]
  | data => dataPush data

def addData (data script : List ℕ) : Except TxScriptError (List ℕ) :=
  if MAX_SCRIPT_ELEMENT_SIZE < data.length then .error ⟨"element exceeds the maximum size"⟩
  else if MAX_SCRIPTS_SIZE < (script ++ canonicalPush data).length then
    .error ⟨"script exceeds the maximum size"⟩
  else .ok (script ++ canonicalPush data)

def addOp (op : ℕ) (script : List ℕ) : Except TxScriptError (List ℕ) :=
  if MAX_SCRIPTS_SIZE < (script ++ [op]).length then .error ⟨"script exceeds the maximum size"⟩
  else .ok (script ++ [op])

/-- Only the numbers that have an opcode are needed here. -/
def addI64 (number : ℤ) (script : List ℕ) : Except TxScriptError (List ℕ) :=
  if number = 0 then addOp OpFalse script
  else if number = -1 ∨ (1 ≤ number ∧ number ≤ 16) then
    addOp (OpTrue - 1 + number).toNat script
  else .error ⟨"no opcode for the number"⟩

theorem canonicalPush_eq {data : List ℕ} (long : 2 ≤ data.length) :
    canonicalPush data = dataPush data := by
  match data, long with
  | _ :: _ :: _, _ => rfl

theorem takeData_append (value : ℕ) (data tail : List ℕ) :
    takeData value data.length (data ++ tail) =
      (.ok ⟨value, data, true, data.length = 0⟩, tail) := by
  simp [takeData]

theorem reads_dataPush {data : List ℕ} (long : 2 ≤ data.length) :
    ∃ opcode, deserializeNextOpcode.Reads (dataPush data) (.ok opcode) ∧ opcode.Pushes data := by
  have nonempty : decide (data.length = 0) = false := decide_eq_false (by omega)
  unfold dataPush
  split
  · rename_i small
    refine ⟨⟨data.length, data, true, decide (data.length = 0)⟩,
      ⟨data.length, data, rfl, fun tail => ?_⟩, rfl, rfl, nonempty⟩
    change nextOpcode data.length (data ++ tail) = _
    unfold nextOpcode
    rw [if_pos small]
    exact takeData_append _ _ _
  · split
    · refine ⟨⟨OpPushData1, data, true, decide (data.length = 0)⟩,
        ⟨OpPushData1, data.length :: data, rfl, fun tail => ?_⟩, rfl, rfl, nonempty⟩
      exact takeData_append OpPushData1 data tail
    · refine ⟨⟨OpPushData2, data, true, decide (data.length = 0)⟩,
        ⟨OpPushData2, data.length % 256 :: data.length / 256 :: data, rfl, fun tail => ?_⟩,
        rfl, rfl, nonempty⟩
      have length : data.length % 256 + 256 * (data.length / 256) = data.length :=
        Nat.mod_add_div _ _
      change takeData OpPushData2 (data.length % 256 + 256 * (data.length / 256)) (data ++ tail) = _
      rw [length]
      exact takeData_append OpPushData2 data tail

theorem reads_op {op : ℕ} (member : op ∈ [OpFalse, OpIf, OpEndIf, OpCheckSig]) :
    ∃ opcode, deserializeNextOpcode.Reads [op] (.ok opcode) ∧ opcode.Is op := by
  simp only [List.mem_cons, List.not_mem_nil, or_false] at member
  rcases member with rfl | rfl | rfl | rfl
  · exact ⟨_, ⟨OpFalse, [], rfl, fun tail => takeData_append OpFalse [] tail⟩, rfl, rfl⟩
  · exact ⟨_, ⟨OpIf, [], rfl, fun tail => rfl⟩, rfl, rfl⟩
  · exact ⟨_, ⟨OpEndIf, [], rfl, fun tail => rfl⟩, rfl, rfl⟩
  · exact ⟨_, ⟨OpCheckSig, [], rfl, fun tail => rfl⟩, rfl, rfl⟩

theorem value_lt_of_takeData {value length : ℕ} {rest : List ℕ} {opcode : Opcode}
    (small : value < Op1Negate) (taken : (takeData value length rest).1 = .ok opcode) :
    opcode.value < Op1Negate := by
  unfold takeData at taken
  split at taken
  · cases taken
  · cases taken
    exact small

theorem data_eq_nil_of_nextOpcode {value : ℕ} {rest : List ℕ} {opcode : Opcode}
    (read : (nextOpcode value rest).1 = .ok opcode) (high : Op1Negate ≤ opcode.value) :
    opcode.data = [] := by
  have push {length : ℕ} {rest : List ℕ} (small : value < Op1Negate)
      (taken : (takeData value length rest).1 = .ok opcode) : opcode.data = [] :=
    absurd high (not_le.2 (value_lt_of_takeData small taken))
  unfold nextOpcode at read
  split at read
  · rename_i small
    exact push (small.trans (by decide)) read
  · split at read
    · rename_i _ same
      subst same
      split at read
      · exact push (by decide) read
      · cases read
    · split at read
      · rename_i _ _ same
        subst same
        split at read
        · exact push (by decide) read
        · cases read
      · split at read
        · rename_i _ _ _ same
          subst same
          split at read
          · exact push (by decide) read
          · cases read
        · cases read
          rfl

/-! Addresses. -/

def extractScriptPubKeyAddress (scriptPublicKey : ScriptPublicKey) (addressPrefix : Prefix) :
    Except TxScriptError Address :=
  let script := scriptPublicKey.script
  if 0 < scriptPublicKey.version then .error ⟨"unsupported script version"⟩
  else if script = OpData32 :: (script.drop 1).take 32 ++ [OpCheckSig] then
    .ok ⟨addressPrefix, .pubKey, (script.drop 1).take 32⟩
  else if script = OpData33 :: (script.drop 1).take 33 ++ [OpCheckSigECDSA] then
    .ok ⟨addressPrefix, .pubKeyEcdsa, (script.drop 1).take 33⟩
  else if script = OpBlake2b :: OpData32 :: (script.drop 2).take 32 ++ [OpEqual] then
    .ok ⟨addressPrefix, .scriptHash, (script.drop 2).take 32⟩
  else .error ⟨"unsupported public key type"⟩

def payToAddressScript (address : Address) : ScriptPublicKey :=
  match address.version with
  | .pubKey => .ofPubKey address.payload
  | .pubKeyEcdsa => .ofPubKeyEcdsa address.payload
  | .scriptHash => .ofScriptHash address.payload

theorem extractScriptPubKeyAddress_ofScriptHash {hash : List ℕ} (length : hash.length = 32)
    (addressPrefix : Prefix) :
    extractScriptPubKeyAddress (.ofScriptHash hash) addressPrefix =
      .ok ⟨addressPrefix, .scriptHash, hash⟩ := by
  have payload : ((OpBlake2b :: OpData32 :: hash ++ [OpEqual]).drop 2).take 32 = hash := by
    simp [← length]
  simp only [extractScriptPubKeyAddress, ScriptPublicKey.ofScriptHash, payload, lt_self_iff_false,
    if_false]
  rw [if_neg (by simp [OpBlake2b, OpData32]), if_neg (by simp [OpBlake2b, OpData33]),
    if_pos trivial]

/-- A script in which a payload of a fixed length stands between two parts. -/
theorem eq_append_take_iff {head script : List ℕ} {length last : ℕ} :
    script = head ++ (script.drop head.length).take length ++ [last] ↔
      ∃ payload, payload.length = length ∧ script = head ++ payload ++ [last] := by
  constructor
  · intro same
    refine ⟨(script.drop head.length).take length, ?_, same⟩
    have sizes := congrArg List.length same
    simp only [List.length_append, List.length_take, List.length_drop, List.length_singleton]
      at sizes ⊢
    omega
  · rintro ⟨payload, rfl, rfl⟩
    simp

/-- Exactly the three address scripts are extracted. -/
theorem extractScriptPubKeyAddress_iff {spk : ScriptPublicKey} {addressPrefix : Prefix} :
    (∃ address, extractScriptPubKeyAddress spk addressPrefix = .ok address) ↔ spk.IsAddress := by
  obtain ⟨version, script⟩ := spk
  have pubKey : script = OpData32 :: (script.drop 1).take 32 ++ [OpCheckSig] ↔
      ∃ payload, payload.length = 32 ∧ script = OpData32 :: payload ++ [OpCheckSig] :=
    @eq_append_take_iff [OpData32] script 32 OpCheckSig
  have pubKeyEcdsa : script = OpData33 :: (script.drop 1).take 33 ++ [OpCheckSigECDSA] ↔
      ∃ payload, payload.length = 33 ∧ script = OpData33 :: payload ++ [OpCheckSigECDSA] :=
    @eq_append_take_iff [OpData33] script 33 OpCheckSigECDSA
  have scriptHash : script = OpBlake2b :: OpData32 :: (script.drop 2).take 32 ++ [OpEqual] ↔
      ∃ hash, hash.length = 32 ∧ script = OpBlake2b :: OpData32 :: hash ++ [OpEqual] :=
    @eq_append_take_iff [OpBlake2b, OpData32] script 32 OpEqual
  constructor
  · rintro ⟨address, extracted⟩
    simp only [extractScriptPubKeyAddress] at extracted
    split_ifs at extracted with later isPubKey isPubKeyEcdsa isScriptHash
    · obtain rfl : version = 0 := by omega
      obtain ⟨payload, length, rfl⟩ := pubKey.1 isPubKey
      exact .pubKey payload length
    · obtain rfl : version = 0 := by omega
      obtain ⟨payload, length, rfl⟩ := pubKeyEcdsa.1 isPubKeyEcdsa
      exact .pubKeyEcdsa payload length
    · obtain rfl : version = 0 := by omega
      obtain ⟨payload, length, rfl⟩ := scriptHash.1 isScriptHash
      exact .scriptHash payload length
  · intro address
    simp only [extractScriptPubKeyAddress]
    split_ifs with later isPubKey isPubKeyEcdsa isScriptHash
    · exact absurd address.version_eq later.ne'
    · exact ⟨_, rfl⟩
    · exact ⟨_, rfl⟩
    · exact ⟨_, rfl⟩
    · exfalso
      cases address with
      | pubKey payload length => exact isPubKey (pubKey.2 ⟨payload, length, rfl⟩)
      | pubKeyEcdsa payload length => exact isPubKeyEcdsa (pubKeyEcdsa.2 ⟨payload, length, rfl⟩)
      | scriptHash hash length => exact isScriptHash (scriptHash.2 ⟨hash, length, rfl⟩)

/-! The text of an address. -/

def generators : List ℕ := [0x98f2bc8e61, 0x79b76d99e2, 0xf33e5fb3c4, 0xae2eabe2a8, 0x1e4f43e470]

def polymod (values : List ℕ) : ℕ :=
  values.foldl (fun check value =>
    generators.zipIdx.foldl (fun next generator =>
        if (check >>> 35).testBit generator.2 then next ^^^ generator.1 else next)
      ((check % 2 ^ 35) <<< 5 ^^^ value)) 1 ^^^ 1

def conv8to5 (bytes : List ℕ) : List ℕ :=
  ((bytes.flatMap fun byte => (List.range 8).map fun bit => byte.testBit (7 - bit)).toChunks 5).map
    fun bits => (List.range 5).foldl (fun value bit => 2 * value + (bits.getD bit false).toNat) 0

def charset : List Char := "qpzry9x8gf2tvdw0s3jn54khce6mua7l".toList

def prefixText : Prefix → String
  | .mainnet => "kaspa"
  | .testnet => "kaspatest"
  | .simnet => "kaspasim"
  | .devnet => "kaspadev"

def versionByte : Version → ℕ
  | .pubKey => 0
  | .pubKeyEcdsa => 1
  | .scriptHash => 8

def addressText (address : Address) : String :=
  let prefixBytes := (prefixText address.addressPrefix).toList.map fun char => char.toNat % 32
  let payload := conv8to5 (versionByte address.version :: address.payload)
  let checksum := polymod (prefixBytes ++ [0] ++ payload ++ List.replicate 8 0)
  let checkBytes := (List.range 5).map fun index => checksum / 256 ^ (4 - index) % 256
  prefixText address.addressPrefix ++ ":" ++
    String.ofList ((payload ++ conv8to5 checkBytes).map fun value => charset.getD value 'q')

example : addressText ⟨.testnet, .pubKey, List.replicate 32 1⟩ =
    "kaspatest:qqqszqgpqyqszqgpqyqszqgpqyqszqgpqyqszqgpqyqszqgpqyqszapw00vun" := by
  decide +kernel

/-! Case mappings. -/

def unicode : Unicode where
  toUppercase text := String.ofList (text.toList.map Char.toUpper)
  toLowercase text := String.ofList (text.toList.map Char.toLower)
  isAlphanumeric := Char.isAlphanum
  zero_le := by
    intro char alphanumeric
    simp only [Char.isAlphanum, Char.isAlpha, Char.isUpper, Char.isLower, Char.isDigit,
      UInt32.le_iff_toNat_le, Bool.or_eq_true, Bool.and_eq_true, decide_eq_true_eq] at alphanumeric
    change 48 ≤ char.val.toNat
    rcases alphanumeric with (⟨low, _⟩ | ⟨low, _⟩) | ⟨low, _⟩
    · exact le_trans (by decide) low
    · exact le_trans (by decide) low
    · exact low

theorem plain_of_isAlphanum {char : Char} (alphanumeric : char.isAlphanum = true) :
    32 ≤ char.toNat ∧ char.toNat ≠ 34 ∧ char.toNat ≠ 92 := by
  have atLeast := unicode.zero_le char alphanumeric
  refine ⟨by omega, by omega, fun backslash => ?_⟩
  have same : char = Char.ofNat 92 := by
    rw [← Char.ofNat_toNat char, backslash]
  subst same
  revert alphanumeric
  decide

theorem isAlphanum_toLower {char : Char} (alphanumeric : char.isAlphanum = true) :
    char.toLower.isAlphanum = true := by
  simp only [Char.isAlphanum, Char.isAlpha_toLower_eq_isAlpha, Bool.or_eq_true] at alphanumeric ⊢
  refine alphanumeric.imp id fun digit => ?_
  rw [Char.toLower_eq_of_not_isUpper, digit]
  simp only [Char.isDigit, Char.isUpper, UInt32.le_iff_toNat_le, Bool.and_eq_true,
    decide_eq_true_eq] at digit ⊢
  rintro ⟨low, _⟩
  exact absurd (low.trans digit.2) (by decide)

theorem unicode_laws : unicode.Laws where
  toUppercase_idem text := by
    simp [unicode, Function.comp_def]
  length_toLowercase text := by
    simp only [unicode, String.toList_ofList, List.length_map]
    omega
  jsonPlain text alphanumeric := by
    refine ⟨fun char member => plain_of_isAlphanum (alphanumeric char member),
      fun char member => ?_⟩
    simp only [unicode, String.toList_ofList, List.mem_map] at member
    obtain ⟨upper, member, rfl⟩ := member
    exact plain_of_isAlphanum (isAlphanum_toLower (alphanumeric upper member))

/-! JSON objects of plain strings. The quotes split such an object into its names, its values
and what stands between them. -/

def quote : Char := Char.ofNat 34

/-- The members of an object, from the pieces behind its opening brace. -/
def members : List (List Char) → Option (List (List Char × List Char))
  | [name, between, value, closing] =>
      if between = [':'] ∧ closing = [Char.ofNat 125] then some [(name, value)] else none
  | name :: between :: value :: separator :: rest =>
      if between = [':'] ∧ separator = [','] then (members rest).map ((name, value) :: ·)
      else none
  | _ => none

def parseObject (text : List Char) : Option (List (List Char × List Char)) :=
  match text.splitOn quote with
  | opening :: pieces => if opening = [Char.ofNat 123] then members pieces else none
  | [] => none

def parseOp (word : List Char) : Option Op :=
  if word = "deploy".toList then some .deploy
  else if word = "mint".toList then some .mint
  else if word = "transfer".toList then some .transfer
  else if word = "discount".toList then some .discount
  else if word = "list".toList then some .list
  else if word = "send".toList then some .send
  else none

def parseNumber (digits : List Char) : Option ℕ :=
  if digits ≠ [] ∧ (∀ digit ∈ digits, digit.isDigit = true) ∧
      Nat.ofDigitChars 10 digits 0 < 2 ^ 64 then
    some (Nat.ofDigitChars 10 digits 0)
  else none

/-- An optional number; one that is present has to parse. -/
def numberField (fields : List (List Char × List Char)) (name : String) : Option (Option ℕ) :=
  match fields.lookup name.toList with
  | none => some none
  | some digits => (parseNumber digits).map some

def textField (fields : List (List Char × List Char)) (name : String) : Option String :=
  (fields.lookup name.toList).map String.ofList

def userOperationOf (fields : List (List Char × List Char)) : Option UserOperation := do
  let protocol ← fields.lookup "p".toList
  let op ← (fields.lookup "op".toList).bind parseOp
  let tick ← (fields.lookup "tick".toList).bind fun text =>
    (Tick.deserialize unicode (String.ofList text)).toOption
  let tokenId ← numberField fields "tokenId"
  let max ← numberField fields "max"
  let royaltyFee ← numberField fields "royaltyFee"
  let daaMintStart ← numberField fields "daaMintStart"
  let discountFee ← numberField fields "discountFee"
  let premint ← numberField fields "premint"
  if protocol = "krc-721".toList then
    some {
      protocol := .krc721
      op
      tick
      tokenId
      metadata := (textField fields "buri").map .remote
      max
      toAddress := textField fields "to"
      royaltyTo := textField fields "royaltyTo"
      royaltyFee
      daaMintStart
      discountFee
      premint }
  else none

@[irreducible] def parseUserOperation (bytes : List ℕ) : Except SerdeError UserOperation :=
  match (parseObject (fromUtf8Unchecked bytes).toList).bind userOperationOf with
  | some model => .ok model
  | none => .error ⟨"invalid inscription"⟩

theorem parseNumber_toDigits {number : ℕ} (bound : number < 2 ^ 64) :
    parseNumber (Nat.toDigits 10 number) = some number := by
  unfold parseNumber
  rw [Nat.ofDigitChars_ten_toDigits, if_pos]
  exact ⟨Nat.toDigits_ne_nil, fun digit member =>
    Nat.isDigit_of_mem_toDigits (by decide) (by decide) member, bound⟩

theorem ne_quote_of_isDigit {digit : Char} (isDigit : digit.isDigit = true) : digit ≠ quote := by
  rintro rfl
  revert isDigit
  decide

/-- What stands between the quotes of an object behind its opening brace. -/
def memberPieces : List (List Char × List Char) → List (List Char)
  | [] => []
  | [(name, value)] => [name, [':'], value, [Char.ofNat 125]]
  | (name, value) :: fields => name :: [':'] :: value :: [','] :: memberPieces fields

/-- The text of an object with at least one member. -/
def objectText (fields : List (List Char × List Char)) : List Char :=
  [quote].intercalate ([Char.ofNat 123] :: memberPieces fields)

/-- Neither the names nor the values have a quote. -/
def Unquoted (fields : List (List Char × List Char)) : Prop :=
  ∀ field ∈ fields, quote ∉ field.1 ∧ quote ∉ field.2

theorem members_memberPieces {fields : List (List Char × List Char)} (nonempty : fields ≠ []) :
    members (memberPieces fields) = some fields := by
  induction fields with
  | nil => exact absurd rfl nonempty
  | cons field fields ih =>
      cases fields with
      | nil => rfl
      | cons next fields =>
          have later := ih (by simp)
          cases fields with
          | nil => rfl
          | cons third fields =>
              simp only [memberPieces, members] at later ⊢
              rw [later]
              simp

theorem unquoted_memberPieces {fields : List (List Char × List Char)}
    (unquoted : Unquoted fields) : ∀ piece ∈ memberPieces fields, quote ∉ piece := by
  have colon : quote ∉ [':'] := by decide
  have comma : quote ∉ [','] := by decide
  have closing : quote ∉ [Char.ofNat 125] := by decide
  induction fields with
  | nil => simp [memberPieces]
  | cons field fields ih =>
      obtain ⟨⟨name, value⟩, later⟩ := List.forall_mem_cons.1 unquoted
      cases fields with
      | nil =>
          simp only [memberPieces, List.forall_mem_cons]
          exact ⟨name, colon, value, closing, by simp⟩
      | cons next fields =>
          simp only [memberPieces, List.forall_mem_cons]
          exact ⟨name, colon, value, comma, ih later⟩

theorem parseObject_objectText {fields : List (List Char × List Char)} (nonempty : fields ≠ [])
    (unquoted : Unquoted fields) : parseObject (objectText fields) = some fields := by
  have opening : quote ∉ [Char.ofNat 123] := by decide
  rw [parseObject, objectText, List.splitOn_intercalate quote
    (List.forall_mem_cons.2 ⟨opening, unquoted_memberPieces unquoted⟩) (by simp)]
  simp only [if_true, members_memberPieces nonempty]

theorem parseUserOperation_objectText {fields : List (List Char × List Char)}
    (nonempty : fields ≠ []) (unquoted : Unquoted fields) {model : UserOperation}
    (operation : userOperationOf fields = some model) :
    parseUserOperation (utf8 (String.ofList (objectText fields))) = .ok model := by
  rw [parseUserOperation, fromUtf8Unchecked_utf8, String.toList_ofList,
    parseObject_objectText nonempty unquoted, Option.bind_some, operation]

/-- The members of an operation on one token. -/
def tokenFields (word text : String) (tokenId : ℕ) : List (List Char × List Char) :=
  [("p".toList, "krc-721".toList), ("op".toList, word.toList), ("tick".toList, text.toList),
    ("tokenId".toList, Nat.toDigits 10 tokenId)]

theorem unquoted_tokenFields {word text : String} (plainWord : quote ∉ word.toList)
    (plainText : quote ∉ text.toList) (tokenId : ℕ) : Unquoted (tokenFields word text tokenId) := by
  have digits : quote ∉ Nat.toDigits 10 tokenId := fun member =>
    ne_quote_of_isDigit (Nat.isDigit_of_mem_toDigits (by decide) (by decide) member) rfl
  simp only [tokenFields, Unquoted, List.forall_mem_cons]
  exact ⟨⟨by decide, by decide⟩, ⟨by decide, plainWord⟩, ⟨by decide, plainText⟩,
    ⟨by decide, digits⟩, by simp⟩

theorem toList_sendInscription (text : String) (tokenId : ℕ) :
    (sendInscription text tokenId).toList = objectText (tokenFields "send" text tokenId) := by
  have pieces {first third fifth : String} {first' third' fifth' : List Char}
      (firstEq : first.toList = first') (thirdEq : third.toList = third')
      (fifthEq : fifth.toList = fifth') :
      (first ++ text ++ third ++ toString tokenId ++ fifth).toList =
        first' ++ text.toList ++ third' ++ Nat.toDigits 10 tokenId ++ fifth' := by
    simp only [String.toList_append, firstEq, thirdEq, fifthEq, Nat.toString_eq_ofList_toDigits,
      String.toList_ofList]
  unfold sendInscription
  rw [@pieces _ _ _
    ([quote].intercalate [[Char.ofNat 123], "p".toList, [':'], "krc-721".toList, [','],
      "op".toList, [':'], "send".toList, [','], "tick".toList, [':'], []])
    ([quote].intercalate [[], [','], "tokenId".toList, [':'], []])
    ([quote].intercalate [[], [Char.ofNat 125]]) (by decide) (by decide) (by decide)]
  simp [objectText, memberPieces, tokenFields, List.intercalate, List.intersperse]

theorem userOperationOf_tokenFields {word : String} {op : Op}
    (known : parseOp word.toList = some op) (text : String) {tokenId : ℕ}
    (bound : tokenId < 2 ^ 64) :
    userOperationOf (tokenFields word text tokenId) =
      (Tick.deserialize unicode text).toOption.map
        fun tick => { sendOperation tokenId tick with op } := by
  have id : numberField (tokenFields word text tokenId) "tokenId" = some (some tokenId) := by
    change (parseNumber (Nat.toDigits 10 tokenId)).map some = _
    rw [parseNumber_toDigits bound]
    rfl
  have absent {name : String}
      (missing : (tokenFields word text tokenId).lookup name.toList = none) :
      numberField (tokenFields word text tokenId) name = some none := by
    rw [numberField, missing]
  have other {name : String}
      (missing : (tokenFields word text tokenId).lookup name.toList = none) :
      textField (tokenFields word text tokenId) name = none := by
    rw [textField, missing]
    rfl
  have protocol : (tokenFields word text tokenId).lookup "p".toList = some "krc-721".toList := rfl
  have opField : (tokenFields word text tokenId).lookup "op".toList = some word.toList := rfl
  have tick : (tokenFields word text tokenId).lookup "tick".toList = some text.toList := rfl
  unfold userOperationOf
  rw [protocol, opField, Option.bind_some, known, tick, id, @absent "max" rfl,
    @absent "royaltyFee" rfl, @absent "daaMintStart" rfl, @absent "discountFee" rfl,
    @absent "premint" rfl, @other "buri" rfl, @other "to" rfl, @other "royaltyTo" rfl]
  simp only [Option.bind_some, bind, String.ofList_toList, if_true]
  cases (Tick.deserialize unicode text).toOption <;> rfl

theorem parsesSends {text : String} {tokenId : ℕ} (plain : JsonPlain text)
    (bound : tokenId < 2 ^ 64) :
    (parseUserOperation (utf8 (sendInscription text tokenId))).toOption =
      (Tick.deserialize unicode text).toOption.map (sendOperation tokenId) := by
  have unquoted := @unquoted_tokenFields "send" text (by decide)
    (fun member => (plain _ member).2.1 rfl) tokenId
  rw [parseUserOperation, fromUtf8Unchecked_utf8, toList_sendInscription,
    parseObject_objectText (by simp [tokenFields]) unquoted, Option.bind_some,
    userOperationOf_tokenFields rfl text bound]
  cases (Tick.deserialize unicode text).toOption <;> rfl

theorem tokenId_lt {bytes : List ℕ} {model : UserOperation}
    (parsed : parseUserOperation bytes = .ok model) {tokenId : ℕ}
    (id : model.tokenId = some tokenId) : tokenId < 2 ^ 64 := by
  unfold parseUserOperation at parsed
  cases object : parseObject (fromUtf8Unchecked bytes).toList with
  | none => simp [object] at parsed
  | some fields =>
      simp only [object, Option.bind_some] at parsed
      cases operation : userOperationOf fields with
      | none => simp [operation] at parsed
      | some found =>
          simp only [operation, Except.ok.injEq] at parsed
          subst parsed
          simp only [userOperationOf, bind, Option.bind_eq_some_iff] at operation
          obtain ⟨_, _, _, _, _, _, number, field, _, _, _, _, _, _, _, _, _, _, built⟩ :=
            operation
          split at built
          · cases built
            simp only at id
            subst id
            unfold numberField at field
            split at field
            · cases field
            · rw [Option.map_eq_some_iff] at field
              obtain ⟨value, digits, same⟩ := field
              cases same
              unfold parseNumber at digits
              split at digits
              · rename_i valid
                cases digits
                exact valid.2.2
              · cases digits
          · cases built

/-! The crates on ASCII text, over some `kaspa` crates. -/

def crates (kaspa : Kaspa) : Crates where
  toKaspa := kaspa
  unicode := unicode
  deserializeNextOpcode := deserializeNextOpcode
  addData := addData
  addOp := addOp
  addI64 := addI64
  extractScriptPubKeyAddress := extractScriptPubKeyAddress
  payToAddressScript := payToAddressScript
  parseAddress _ := .error .invalidAddress
  addressErrorText _ := "The address is invalid"
  parseUserOperation := parseUserOperation

theorem crates_scriptLaws {kaspa : Kaspa} (standard : ∀ redeemScript, ∃ hash,
    hash.length = 32 ∧ kaspa.payToScriptHashScript redeemScript = .ofScriptHash hash) :
    (crates kaspa).ScriptLaws where
  addData := by
    intro data script long short fits
    change addData data script = _
    unfold addData
    rw [canonicalPush_eq long, if_neg (not_lt.2 short), if_neg (not_lt.2 fits)]
  addOp := by
    intro op script fits
    change addOp op script = _
    rw [addOp, if_neg (not_lt.2 fits)]
  addZero := by
    intro script fits
    change addOp OpFalse script = _
    rw [addOp, if_neg (not_lt.2 fits)]
  readsData := fun data long _ => reads_dataPush long
  readsOp := fun op member => reads_op member
  extractScriptHash := by
    intro redeemScript addressPrefix
    obtain ⟨hash, length, script⟩ := standard redeemScript
    refine ⟨⟨addressPrefix, .scriptHash, hash⟩, ?_⟩
    change extractScriptPubKeyAddress (kaspa.payToScriptHashScript redeemScript) _ = _
    rw [script]
    exact extractScriptPubKeyAddress_ofScriptHash length addressPrefix

theorem crates_dataInPushes (kaspa : Kaspa) : (crates kaspa).DataInPushes :=
  fun _ _ _ read high => data_eq_nil_of_nextOpcode read high

theorem crates_parsesSends (kaspa : Kaspa) : (crates kaspa).ParsesSends := by
  unfold Crates.ParsesSends
  dsimp only [crates]
  exact fun text tokenId plain bound => parsesSends plain bound

theorem crates_tokenIdsFit (kaspa : Kaspa) : (crates kaspa).TokenIdsFit :=
  fun _ _ parsed _ id => tokenId_lt parsed id

end Krc721.Ascii
