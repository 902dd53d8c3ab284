import Krc721.Analyzer.Envelope

/-! The redeem script of a listing: how it is built from the seller's key and the inscription
of the sale, and how the seller's key is read out of a signature script. -/

set_option autoImplicit false

namespace Krc721

open SymbolStream

/-- `compute_listing_p2sh` writes this inscription. -/
def sendInscription (tick : String) (tokenId : ℕ) : String :=
  "\x7b\"p\":\"krc-721\",\"op\":\"send\",\"tick\":\"" ++ tick ++ "\",\"tokenId\":\"" ++
    toString tokenId ++ "\"\x7d"

/-- `expect`; an error panics. -/
def expectOk {Error Value : Type} : Except Error Value → Except Failure Value
  | .ok value => .ok value
  | .error _ => .error .panicked

namespace Crates

variable (crates : Crates)

def redeemPubkey (header redeemScript pubkey : List ℕ) : Except TxScriptError (List ℕ) := do
  let script ← crates.addData pubkey []
  let script ← crates.addOp OpCheckSig script
  let script ← crates.addOp OpFalse script
  let script ← crates.addOp OpIf script
  let script ← crates.addData header script
  let script ← crates.addI64 0 script
  let script ← crates.addData redeemScript script
  crates.addOp OpEndIf script

def computeListingP2sh (sellerPubkey : List ℕ) (tick : String) (tokenId : ℕ)
    (addressPrefix : Prefix) : Except Failure (Address × List ℕ) := do
  let sendJson := sendInscription (crates.unicode.toLowercase tick) tokenId
  let scriptSig ← expectOk
    (crates.redeemPubkey PROTOCOL_KSPR_NAMESPACE (utf8 sendJson) sellerPubkey)
  let redeemLockP2sh := crates.payToScriptHashScript scriptSig
  let p2shAddr ← expectOk (crates.extractScriptPubKeyAddress redeemLockP2sh addressPrefix)
  .ok (p2shAddr, scriptSig)

/-- `sender_pubkey_bytes`: 32-byte Schnorr keys and 33-byte ECDSA keys. -/
def senderPubkeyBytes (sigtx : ContextTransaction) : Option (List ℕ) :=
  match sigtx.signatureScript with
  | none => none
  | some sigScript =>
      match ((crates.parseScript sigScript)[1]? : Option (Except TxScriptError Opcode)) with
      | some (.ok second) =>
          if !second.isPushOpcode then none
          else
            match collect (crates.parseScript second.data) with
            | .ok (pubkeyOpcode :: _) =>
                if pubkeyOpcode.isPushOpcode &&
                    (pubkeyOpcode.data.length = 32 || pubkeyOpcode.data.length = 33) then
                  some pubkeyOpcode.data
                else none
            | _ => none
      | _ => none

end Crates

/-! What the documentation of the script crate promises of its builder and its parser. -/

def MAX_SCRIPT_ELEMENT_SIZE : ℕ := 520

def MAX_SCRIPTS_SIZE : ℕ := 10000

def OpPushData1 : ℕ := 0x4c

def OpPushData2 : ℕ := 0x4d

/-- The code of the shortest push of a data item of two bytes or more. -/
def dataPush (data : List ℕ) : List ℕ :=
  if data.length < OpPushData1 then data.length :: data
  else if data.length < 256 then OpPushData1 :: data.length :: data
  else OpPushData2 :: data.length % 256 :: data.length / 256 :: data

/-- The opcode is a data push of the item. -/
structure Opcode.Pushes (opcode : Opcode) (data : List ℕ) : Prop where
  data_eq : opcode.data = data
  isPushOpcode : opcode.isPushOpcode = true
  isEmpty : opcode.isEmpty = false

/-- The opcode is the operator: no data push. -/
structure Opcode.Is (opcode : Opcode) (value : ℕ) : Prop where
  value_eq : opcode.value = value
  data_eq : opcode.data = []

structure Crates.ScriptLaws (crates : Crates) : Prop where
  addData : ∀ data script, 2 ≤ data.length → data.length ≤ MAX_SCRIPT_ELEMENT_SIZE →
    (script ++ dataPush data).length ≤ MAX_SCRIPTS_SIZE →
    crates.addData data script = .ok (script ++ dataPush data)
  addOp : ∀ op script, (script ++ [op]).length ≤ MAX_SCRIPTS_SIZE →
    crates.addOp op script = .ok (script ++ [op])
  addZero : ∀ script, (script ++ [OpFalse]).length ≤ MAX_SCRIPTS_SIZE →
    crates.addI64 0 script = .ok (script ++ [OpFalse])
  readsData : ∀ data, 2 ≤ data.length → data.length ≤ MAX_SCRIPT_ELEMENT_SIZE →
    ∃ opcode, crates.deserializeNextOpcode.Reads (dataPush data) (.ok opcode) ∧
      opcode.Pushes data
  readsOp : ∀ op ∈ [OpFalse, OpIf, OpEndIf, OpCheckSig],
    ∃ opcode, crates.deserializeNextOpcode.Reads [op] (.ok opcode) ∧ opcode.Is op
  extractScriptHash : ∀ redeemScript addressPrefix, ∃ address,
    crates.extractScriptPubKeyAddress (crates.payToScriptHashScript redeemScript)
      addressPrefix = .ok address

def Op1Negate : ℕ := 0x4f

def Op16 : ℕ := 0x60

/-- Only the data pushes carry data. -/
def Crates.DataInPushes (crates : Crates) : Prop :=
  ∀ symbol rest opcode, (crates.deserializeNextOpcode.next symbol rest).1 = .ok opcode →
    Op1Negate ≤ opcode.value → opcode.data = []

/-- The text stands for itself between the quotes of a JSON string. -/
def JsonPlain (text : String) : Prop :=
  ∀ char ∈ text.toList, 32 ≤ char.toNat ∧ char.toNat ≠ 34 ∧ char.toNat ≠ 92

/-- What the standard library promises of its case mappings and its character class. -/
structure Unicode.Laws (unicode : Unicode) : Prop where
  toUppercase_idem : ∀ text,
    unicode.toUppercase (unicode.toUppercase text) = unicode.toUppercase text
  length_toLowercase : ∀ text,
    (unicode.toLowercase text).toList.length ≤ 3 * text.toList.length
  jsonPlain : ∀ text, (∀ char ∈ text.toList, unicode.isAlphanumeric char = true) →
    JsonPlain text ∧ JsonPlain (unicode.toLowercase text)

/-! What the JSON parser promises of inscriptions. -/

/-- The token ids of a parsed inscription are of type `u64`. -/
def Crates.TokenIdsFit (crates : Crates) : Prop :=
  ∀ bytes model, crates.parseUserOperation bytes = .ok model →
    ∀ tokenId, model.tokenId = some tokenId → tokenId < 2 ^ 64

/-- The inscription that `sendInscription` writes down. -/
def sendOperation (tokenId : ℕ) (tick : Tick) : UserOperation where
  protocol := .krc721
  op := .send
  tick := tick
  tokenId := some tokenId
  metadata := none
  max := none
  toAddress := none
  royaltyTo := none
  royaltyFee := none
  daaMintStart := none
  discountFee := none
  premint := none

/-- The JSON parser reads the inscription of a send, with the tick as `Tick` reads it. -/
def Crates.ParsesSends (crates : Crates) : Prop :=
  ∀ text tokenId, JsonPlain text → tokenId < 2 ^ 64 →
    (crates.parseUserOperation (utf8 (sendInscription text tokenId))).toOption =
      (Tick.deserialize crates.unicode text).toOption.map (sendOperation tokenId)

/-! What the builder builds, and how it is parsed. -/

theorem length_dataPush_le (data : List ℕ) : (dataPush data).length ≤ data.length + 3 := by
  unfold dataPush
  split
  · simp
  · split <;> simp

def redeemScriptOf (pubkey payload : List ℕ) : List ℕ :=
  [dataPush pubkey, [OpCheckSig], [OpFalse], [OpIf], dataPush PROTOCOL_KSPR_NAMESPACE,
    [OpFalse], dataPush payload, [OpEndIf]].flatten

theorem length_redeemScriptOf_le (pubkey payload : List ℕ) :
    (redeemScriptOf pubkey payload).length ≤ pubkey.length + payload.length + 16 := by
  have pubkeyLe := length_dataPush_le pubkey
  have payloadLe := length_dataPush_le payload
  have header : (dataPush PROTOCOL_KSPR_NAMESPACE).length = 5 := rfl
  simp only [redeemScriptOf, List.flatten_cons, List.flatten_nil, List.length_append,
    List.length_cons, List.length_nil, header]
  omega

namespace Crates.ScriptLaws

variable {crates : Crates} (laws : crates.ScriptLaws) {pubkey payload : List ℕ}

include laws

theorem redeemPubkey_eq (pubkeyMin : 2 ≤ pubkey.length)
    (pubkeyMax : pubkey.length ≤ MAX_SCRIPT_ELEMENT_SIZE) (payloadMin : 2 ≤ payload.length)
    (payloadMax : payload.length ≤ MAX_SCRIPT_ELEMENT_SIZE) :
    crates.redeemPubkey PROTOCOL_KSPR_NAMESPACE payload pubkey =
      .ok (redeemScriptOf pubkey payload) := by
  have pubkeyLe := length_dataPush_le pubkey
  have payloadLe := length_dataPush_le payload
  have header : (dataPush PROTOCOL_KSPR_NAMESPACE).length = 5 := rfl
  unfold MAX_SCRIPT_ELEMENT_SIZE at pubkeyMax payloadMax
  -- The whole script is far below the size limit, so every step of the builder succeeds.
  have room {script : List ℕ} (short : script.length ≤ 1100) :
      script.length ≤ MAX_SCRIPTS_SIZE := short.trans (by decide)
  unfold Crates.redeemPubkey
  rw [laws.addData _ _ pubkeyMin pubkeyMax (room (by simp; omega))]
  simp only [bind, Except.bind]
  rw [laws.addOp _ _ (room (by simp; omega))]
  simp only
  rw [laws.addOp _ _ (room (by simp; omega))]
  simp only
  rw [laws.addOp _ _ (room (by simp; omega))]
  simp only
  rw [laws.addData _ _ (by decide) (by decide) (room (by simp [header]; omega))]
  simp only
  rw [laws.addZero _ (room (by simp [header]; omega))]
  simp only
  rw [laws.addData _ _ payloadMin payloadMax (room (by simp [header]; omega))]
  simp only
  rw [laws.addOp _ _ (room (by simp [header]; omega))]
  simp [redeemScriptOf]

theorem exists_pushes (items : List (List ℕ)) (sized : ∀ item ∈ items,
    2 ≤ item.length ∧ item.length ≤ MAX_SCRIPT_ELEMENT_SIZE) :
    ∃ opcodes, List.Forall₂ Opcode.Pushes opcodes items ∧
      crates.parseScript (items.map dataPush).flatten = opcodes.map .ok := by
  induction items with
  | nil => exact ⟨[], .nil, rfl⟩
  | cons item items ih =>
      obtain ⟨⟨itemMin, itemMax⟩, sized⟩ := List.forall_mem_cons.1 sized
      obtain ⟨opcode, reads, pushes⟩ := laws.readsData item itemMin itemMax
      obtain ⟨opcodes, others, parsed⟩ := ih sized
      refine ⟨opcode :: opcodes, .cons pushes others, ?_⟩
      rw [List.map_cons, List.flatten_cons, Crates.parseScript, reads.batching_append]
      exact congrArg (Except.ok opcode :: ·) parsed

theorem exists_envelope (pubkeyMin : 2 ≤ pubkey.length)
    (pubkeyMax : pubkey.length ≤ MAX_SCRIPT_ELEMENT_SIZE) (payloadMin : 2 ≤ payload.length)
    (payloadMax : payload.length ≤ MAX_SCRIPT_ELEMENT_SIZE) :
    ∃ envelope : RedeemEnvelope, envelope.IsValid ∧
      crates.parseScript (redeemScriptOf pubkey payload) = envelope.opcodes.map .ok ∧
      envelope.first.Pushes pubkey ∧ envelope.second.value = OpCheckSig ∧
      envelope.content.Pushes payload := by
  obtain ⟨first, readsFirst, pushesFirst⟩ := laws.readsData pubkey pubkeyMin pubkeyMax
  obtain ⟨second, readsSecond, isCheckSig⟩ := laws.readsOp OpCheckSig (by simp)
  obtain ⟨opFalse, readsFalse, isFalse⟩ := laws.readsOp OpFalse (by simp)
  obtain ⟨opIf, readsIf, isIf⟩ := laws.readsOp OpIf (by simp)
  obtain ⟨protocol, readsProtocol, pushesProtocol⟩ :=
    laws.readsData PROTOCOL_KSPR_NAMESPACE (by decide) (by decide)
  obtain ⟨content, readsContent, pushesContent⟩ := laws.readsData payload payloadMin payloadMax
  obtain ⟨last, readsLast, isEndIf⟩ := laws.readsOp OpEndIf (by simp)
  refine ⟨⟨first, second, opFalse, opIf, protocol, none, opFalse, content, last⟩, ?_, ?_,
    pushesFirst, isCheckSig.value_eq, pushesContent⟩
  · exact {
      opFalse := isFalse.value_eq
      opIf := isIf.value_eq
      protocol := ⟨pushesProtocol.isPushOpcode, pushesProtocol.data_eq⟩
      optional := by simp
      marker := isFalse.value_eq
      content := ⟨pushesContent.isEmpty, pushesContent.isPushOpcode⟩
      last := isEndIf.value_eq }
  · exact Reader.batching_flatten (.cons readsFirst (.cons readsSecond (.cons readsFalse
      (.cons readsIf (.cons readsProtocol (.cons readsFalse (.cons readsContent
        (.cons readsLast .nil))))))))

end Crates.ScriptLaws

/-! The inscription of a listing fits one push. -/

theorem length_utf8EncodeChar_le (char : Char) : (String.utf8EncodeChar char).length ≤ 4 := by
  unfold String.utf8EncodeChar
  simp only
  split_ifs <;> simp

theorem length_utf8_le (text : String) : (utf8 text).length ≤ 4 * text.toList.length := by
  simp only [utf8, List.length_map]
  induction text.toList with
  | nil => simp
  | cons char chars ih =>
      have char4 := length_utf8EncodeChar_le char
      simp only [List.flatMap_cons, List.length_append, List.length_cons]
      omega

theorem length_utf8_toString_le {tokenId : ℕ} (bound : tokenId < 2 ^ 64) :
    (utf8 (toString tokenId)).length ≤ 80 := by
  have digits : (toString tokenId).toList.length ≤ 20 := by
    simp only [Nat.toString_eq_ofList_toDigits, String.toList_ofList]
    have short : tokenId < 10 ^ 20 := bound.trans (by norm_num)
    exact (Nat.length_toDigits_le_iff (by decide) (by decide)).2 short
  have bytes := length_utf8_le (toString tokenId)
  omega

theorem length_sendInscription (tick : String) (tokenId : ℕ) :
    (utf8 (sendInscription tick tokenId)).length =
      50 + (utf8 tick).length + (utf8 (toString tokenId)).length := by
  have front : (utf8 "\x7b\"p\":\"krc-721\",\"op\":\"send\",\"tick\":\"").length = 35 := by
    decide
  have middle : (utf8 "\",\"tokenId\":\"").length = 13 := by decide
  have back : (utf8 "\"\x7d").length = 2 := by decide
  have pieces (first second third fourth fifth : String) :
      (utf8 (first ++ second ++ third ++ fourth ++ fifth)).length =
        (utf8 first).length + (utf8 second).length + (utf8 third).length +
          (utf8 fourth).length + (utf8 fifth).length := by
    simp only [utf8_append, List.length_append]
  have total {first second third fourth fifth : ℕ} (firstEq : first = 35) (thirdEq : third = 13)
      (fifthEq : fifth = 2) :
      first + second + third + fourth + fifth = 50 + second + fourth := by
    omega
  exact (pieces _ _ _ _ _).trans (total front middle back)

theorem two_le_length_sendInscription (text : String) (tokenId : ℕ) :
    2 ≤ (utf8 (sendInscription text tokenId)).length := by
  rw [length_sendInscription]
  exact Nat.le_add_right_of_le (Nat.le_add_right_of_le (by decide))

theorem length_sendInscription_le {unicode : Unicode} (laws : unicode.Laws) {tick : String}
    {tokenId : ℕ} (short : tick.toList.length ≤ TICK_LENGTH) (bound : tokenId < 2 ^ 64) :
    (utf8 (sendInscription (unicode.toLowercase tick) tokenId)).length ≤ 250 := by
  have lower := laws.length_toLowercase tick
  have lowerBytes := length_utf8_le (unicode.toLowercase tick)
  have idBytes := length_utf8_toString_le bound
  rw [length_sendInscription]
  unfold TICK_LENGTH at short
  calc 50 + (utf8 (unicode.toLowercase tick)).length + (utf8 (toString tokenId)).length
      ≤ 50 + 4 * (unicode.toLowercase tick).toList.length + 80 := by gcongr
    _ ≤ 50 + 4 * (3 * 10) + 80 := by
        gcongr
        exact lower.trans (by gcongr)

/-- The redeem script of a listing can be built for every key a seller can have. -/
theorem Crates.ScriptLaws.computeListingP2sh_eq {crates : Crates} (laws : crates.ScriptLaws)
    (unicodeLaws : crates.unicode.Laws) {pubkey : List ℕ} {tick : String} {tokenId : ℕ}
    (pubkeyLength : pubkey.length = 32 ∨ pubkey.length = 33)
    (short : tick.toList.length ≤ TICK_LENGTH) (bound : tokenId < 2 ^ 64)
    (addressPrefix : Prefix) :
    ∃ address, crates.computeListingP2sh pubkey tick tokenId addressPrefix =
      .ok (address, redeemScriptOf pubkey
        (utf8 (sendInscription (crates.unicode.toLowercase tick) tokenId))) := by
  have payloadMin := two_le_length_sendInscription (crates.unicode.toLowercase tick) tokenId
  have payloadMax := length_sendInscription_le unicodeLaws short bound
  have pubkeyMin : 2 ≤ pubkey.length := by omega
  have pubkeyMax : pubkey.length ≤ MAX_SCRIPT_ELEMENT_SIZE := by
    unfold MAX_SCRIPT_ELEMENT_SIZE
    omega
  have built := laws.redeemPubkey_eq pubkeyMin pubkeyMax payloadMin
    (payloadMax.trans (by decide))
  obtain ⟨address, extracted⟩ := laws.extractScriptHash (redeemScriptOf pubkey
    (utf8 (sendInscription (crates.unicode.toLowercase tick) tokenId))) addressPrefix
  refine ⟨address, ?_⟩
  simp only [Crates.computeListingP2sh, built, expectOk, bind, Except.bind, extracted]

end Krc721
