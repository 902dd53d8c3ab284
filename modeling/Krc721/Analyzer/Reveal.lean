import Krc721.Analyzer.DetectProperties

/-! The reveal of a redeem script: a transaction that reveals the redeem script of a key and
an inscription asks for the operation of the inscription in the name of the key. -/

set_option autoImplicit false

namespace Krc721

open SymbolStream

theorem Crates.ParsesSends.eq_ok_iff {crates : Crates} (parsesSends : crates.ParsesSends)
    {text : String} {tokenId : ℕ} {model : UserOperation} (plain : JsonPlain text)
    (bound : tokenId < 2 ^ 64) :
    crates.parseUserOperation (utf8 (sendInscription text tokenId)) = .ok model ↔
      ∃ tick, Tick.deserialize crates.unicode text = .ok tick ∧
        sendOperation tokenId tick = model := by
  rw [← toOption_eq_some_iff, parsesSends text tokenId plain bound,
    Option.map_eq_some_iff]
  simp only [toOption_eq_some_iff]

/-! Ticks that were parsed. -/

namespace Tick

variable {unicode : Unicode} {tick : Tick}

/-- The tick was parsed from a text. -/
def IsValid (unicode : Unicode) (tick : Tick) : Prop :=
  ∃ text, fromStr unicode text = .ok tick

theorem IsValid.exists_text (valid : IsValid unicode tick) (laws : unicode.Laws) :
    ∃ isText : IsText unicode tick.asStr, tick = ofText tick.asStr isText ∧
      unicode.toUppercase tick.asStr = tick.asStr := by
  obtain ⟨text, parsed⟩ := valid
  obtain ⟨isText, rfl⟩ := fromStr_eq_ok_iff.1 parsed
  simp only [asStr_ofText]
  exact ⟨isText, trivial, laws.toUppercase_idem text⟩

theorem IsValid.fromStr_asStr (valid : IsValid unicode tick) (laws : unicode.Laws) :
    fromStr unicode tick.asStr = .ok tick := by
  obtain ⟨text, parsed⟩ := valid
  obtain ⟨_, _, upper⟩ := IsValid.exists_text ⟨text, parsed⟩ laws
  exact (fromStr_eq_ok_iff_of_parsed parsed).2 upper

/-- A lower-cased tick is read back exactly if upper-casing undoes the lower-casing. -/
theorem IsValid.deserialize_toLowercase_iff (valid : IsValid unicode tick) :
    deserialize unicode (unicode.toLowercase tick.asStr) = .ok tick ↔
      unicode.toUppercase (unicode.toLowercase tick.asStr) = tick.asStr := by
  obtain ⟨text, parsed⟩ := valid
  rw [deserialize_eq_ok_iff_fromStr, fromStr_eq_ok_iff_of_parsed parsed]

end Tick

/-! The reveal of a redeem script. -/

/-- The second item of the signature script is the redeem script. -/
def RevealsScript (crates : Crates) (sigtx : ContextTransaction) (redeemScript : List ℕ) :
    Prop :=
  ∃ signature item tail, crates.deserializeNextOpcode.Reads signature item ∧
    sigtx.signatureScript = some (signature ++ (dataPush redeemScript ++ tail))

/-- The payload of an inscription that has its header. -/
def Headed (payload : List ℕ) : Prop :=
  ∃ front back, payload = front ++ KRC721_HEADER_UC ++ back

theorem Headed.two_le_length {payload : List ℕ} (headed : Headed payload) :
    2 ≤ payload.length := by
  obtain ⟨front, back, rfl⟩ := headed
  simp only [List.length_append, KRC721_HEADER_UC, List.length_cons]
  omega

theorem exists_front_dataPush (data : List ℕ) : ∃ front, dataPush data = front ++ data := by
  unfold dataPush
  split
  · exact ⟨[data.length], rfl⟩
  · split
    · exact ⟨[OpPushData1, data.length], rfl⟩
    · exact ⟨[OpPushData2, data.length % 256, data.length / 256], rfl⟩

theorem length_le_redeemScriptOf (pubkey payload : List ℕ) :
    payload.length ≤ (redeemScriptOf pubkey payload).length := by
  obtain ⟨front, pushed⟩ := exists_front_dataPush payload
  simp only [redeemScriptOf, pushed, List.flatten_cons, List.length_append]
  omega

theorem length_pubkey_le_redeemScriptOf (pubkey payload : List ℕ) :
    pubkey.length ≤ (redeemScriptOf pubkey payload).length := by
  obtain ⟨front, pushed⟩ := exists_front_dataPush pubkey
  simp only [redeemScriptOf, pushed, List.flatten_cons, List.length_append]
  omega

section Reveal

variable {crates : Crates} {sigtx : ContextTransaction} {pubkey payload : List ℕ}

/-- The header of an inscription is found in its redeem script. -/
theorem detectKrc721Header_redeemScriptOf (pubkeyMin : 10 ≤ pubkey.length)
    (headed : Headed payload) :
    detectKrc721Header (redeemScriptOf pubkey payload) = true := by
  obtain ⟨front, back, payloadEq⟩ := headed
  obtain ⟨pubkeyFront, pubkeyPush⟩ := exists_front_dataPush pubkey
  obtain ⟨payloadFront, payloadPush⟩ := exists_front_dataPush payload
  have found := @isSome_windowFind ℕ _ KRC721_HEADER_UC (by decide) headerOffset
    (pubkeyFront ++ pubkey ++ [OpCheckSig] ++ [OpFalse] ++ [OpIf] ++
      dataPush PROTOCOL_KSPR_NAMESPACE ++ [OpFalse] ++ payloadFront ++ front)
    (by
      simp only [List.length_append, headerOffset]
      omega) (back ++ [OpEndIf])
  have whole : redeemScriptOf pubkey payload = pubkeyFront ++ pubkey ++ [OpCheckSig] ++ [OpFalse] ++
      [OpIf] ++ dataPush PROTOCOL_KSPR_NAMESPACE ++ [OpFalse] ++ payloadFront ++ front ++
      KRC721_HEADER_UC ++ (back ++ [OpEndIf]) := by
    rw [redeemScriptOf, pubkeyPush, payloadPush, payloadEq]
    simp
  rw [detectKrc721Header, whole, found, Bool.true_or]

/-- The strict header is found in every signature script that reveals a redeem script. -/
theorem detectKsprHeader_append (pubkeyMin : 10 ≤ pubkey.length) (signature tail : List ℕ) :
    detectKsprHeader
      (signature ++ (dataPush (redeemScriptOf pubkey payload) ++ tail)) = true := by
  obtain ⟨pubkeyFront, pubkeyPush⟩ := exists_front_dataPush pubkey
  obtain ⟨scriptFront, scriptPush⟩ := exists_front_dataPush (redeemScriptOf pubkey payload)
  have found := @isSome_windowFind ℕ _ KSPR_U8_STRICT (by decide) headerOffset
    (signature ++ scriptFront ++ pubkeyFront ++ pubkey ++ [OpCheckSig])
    (by
      simp only [List.length_append, headerOffset]
      omega) ([OpFalse] ++ dataPush payload ++ [OpEndIf] ++ tail)
  have header : [OpFalse] ++ [OpIf] ++ dataPush PROTOCOL_KSPR_NAMESPACE = KSPR_U8_STRICT := rfl
  have whole : signature ++ (dataPush (redeemScriptOf pubkey payload) ++ tail) =
      signature ++ scriptFront ++ pubkeyFront ++ pubkey ++ [OpCheckSig] ++ KSPR_U8_STRICT ++
        ([OpFalse] ++ dataPush payload ++ [OpEndIf] ++ tail) := by
    rw [scriptPush, redeemScriptOf, pubkeyPush, ← header]
    simp
  rw [detectKsprHeader, whole, found, Bool.true_or]

theorem headed_sendInscription (text : String) (tokenId : ℕ) :
    Headed (utf8 (sendInscription text tokenId)) := by
  have front : utf8 "\x7b\"p\":\"krc-721\",\"op\":\"send\",\"tick\":\"" =
      utf8 "\x7b\"p\":\"" ++ KRC721_HEADER_UC ++ utf8 "\",\"op\":\"send\",\"tick\":\"" := by
    decide
  have headed {first : String} {before after : List ℕ}
      (split : utf8 first = before ++ KRC721_HEADER_UC ++ after) (second third fourth : String)
      (fifth : String) : Headed (utf8 (first ++ second ++ third ++ fourth ++ fifth)) := by
    refine ⟨before, after ++ utf8 second ++ utf8 third ++ utf8 fourth ++ utf8 fifth, ?_⟩
    simp only [utf8_append, split, List.append_assoc]
  exact headed front _ _ _ _

variable {redeemScript redeemScript' : List ℕ} {envelope envelope' : RedeemEnvelope}

theorem RevealsEnvelope.unique (reveals : RevealsEnvelope crates sigtx redeemScript envelope)
    (reveals' : RevealsEnvelope crates sigtx redeemScript' envelope') :
    envelope.first = envelope'.first ∧ envelope.second = envelope'.second ∧
      envelope.content = envelope'.content := by
  obtain ⟨script, opcode, signed, _, redeem, rfl⟩ := reveals.script
  obtain ⟨script', opcode', signed', _, redeem', rfl⟩ := reveals'.script
  rw [signed] at signed'
  cases signed'
  rw [redeem] at redeem'
  cases redeem'
  have same : envelope.opcodes = envelope'.opcodes :=
    List.map_injective_iff.2 (fun _ _ equal => Except.ok.inj equal)
      (reveals.parsed.symm.trans reveals'.parsed)
  have first := envelope.indexOpcode_first
  have second := envelope.indexOpcode_second
  have content := envelope.indexOpcode_content
  rw [same] at first second content
  rw [envelope'.indexOpcode_first] at first
  rw [envelope'.indexOpcode_second] at second
  rw [envelope'.indexOpcode_content] at content
  exact ⟨(Except.ok.inj first).symm, (Except.ok.inj second).symm, (Except.ok.inj content).symm⟩

/-- The envelope of a redeem script that fits into one push and is revealed. -/
theorem RevealsScript.exists_envelope_of_fits (scriptLaws : crates.ScriptLaws)
    (pubkeyLength : pubkey.length = 32 ∨ pubkey.length = 33) (headed : Headed payload)
    (fits : (redeemScriptOf pubkey payload).length ≤ MAX_SCRIPT_ELEMENT_SIZE)
    (revealed : RevealsScript crates sigtx (redeemScriptOf pubkey payload)) :
    ∃ envelope : RedeemEnvelope, envelope.first.Pushes pubkey ∧
      envelope.second.value = OpCheckSig ∧ envelope.content.data = payload ∧
      RevealsEnvelope crates sigtx (redeemScriptOf pubkey payload) envelope := by
  have payloadMax := length_le_redeemScriptOf pubkey payload
  have header := @detectKrc721Header_redeemScriptOf pubkey payload (by omega) headed
  have scriptMin : 2 ≤ (redeemScriptOf pubkey payload).length :=
    headed.two_le_length.trans payloadMax
  obtain ⟨envelope, valid, parsed, first, second, content⟩ :=
    @Crates.ScriptLaws.exists_envelope crates scriptLaws pubkey payload (by omega)
      (by unfold MAX_SCRIPT_ELEMENT_SIZE; omega) headed.two_le_length (payloadMax.trans fits)
  obtain ⟨signature, item, tail, readsSignature, signed⟩ := revealed
  obtain ⟨opcode, readsScript, pushes⟩ := scriptLaws.readsData _ scriptMin fits
  refine ⟨envelope, first, second, content.data_eq, ⟨_, opcode, signed,
    detectKsprHeader_append (by omega) signature tail, ?_, pushes.data_eq⟩, parsed, valid⟩
  rw [redeemOpcode_eq_ok_iff]
  refine ⟨?_, pushes.isEmpty, pushes.isPushOpcode, by rw [pushes.data_eq, header]⟩
  rw [Crates.parseScript, readsSignature.batching_append, readsScript.batching_append]
  rfl

theorem RevealsScript.exists_envelope (scriptLaws : crates.ScriptLaws)
    (pubkeyLength : pubkey.length = 32 ∨ pubkey.length = 33)
    (payloadMax : payload.length ≤ 250) (headed : Headed payload)
    (revealed : RevealsScript crates sigtx (redeemScriptOf pubkey payload)) :
    ∃ envelope : RedeemEnvelope, envelope.first.Pushes pubkey ∧
      envelope.second.value = OpCheckSig ∧ envelope.content.data = payload ∧
      RevealsEnvelope crates sigtx (redeemScriptOf pubkey payload) envelope := by
  have fits : (redeemScriptOf pubkey payload).length ≤ MAX_SCRIPT_ELEMENT_SIZE := by
    have le := length_redeemScriptOf_le pubkey payload
    unfold MAX_SCRIPT_ELEMENT_SIZE
    omega
  exact revealed.exists_envelope_of_fits scriptLaws pubkeyLength headed fits

end Reveal

/-! The operation of a revealed inscription. -/

namespace Analyzer

variable {crates : Crates} {analyzer : Analyzer} {sigtx : ContextTransaction} {pubkey : List ℕ}
  {text : String} {tick : Tick} {tokenId : ℕ}

theorem resolves_sendOperation :
    Resolves crates analyzer (sendOperation tokenId tick) none none := ⟨rfl, rfl⟩

/-- A transaction that reveals a redeem script asks for the operation of its payload. -/
theorem detectKrc721_of_redeemScript (scriptLaws : crates.ScriptLaws)
    (pubkeyLength : pubkey.length = 32 ∨ pubkey.length = 33) {payload : List ℕ}
    (payloadMax : payload.length ≤ 250) (headed : Headed payload)
    (revealed : RevealsScript crates sigtx (redeemScriptOf pubkey payload))
    {model : UserOperation} (accepted : crates.parseUserOperation payload = .ok model)
    {resolvedTo resolvedRoyaltyTo : Option Address}
    (resolves : Resolves crates analyzer model resolvedTo resolvedRoyaltyTo) :
    ∃ firstOpcode secondOpcode, firstOpcode.data = pubkey ∧ secondOpcode.value = OpCheckSig ∧
      analyzer.detectKrc721 crates sigtx =
        (analyzer.operationOf crates sigtx firstOpcode secondOpcode model resolvedTo
          resolvedRoyaltyTo).map some := by
  obtain ⟨envelope, first, second, content, reveals⟩ :=
    revealed.exists_envelope scriptLaws pubkeyLength payloadMax headed
  exact ⟨envelope.first, envelope.second, first.data_eq, second,
    detectKrc721_of_reveals ⟨reveals, content ▸ accepted⟩ resolves⟩

theorem detectSender_eq_ofPubKey {firstOpcode secondOpcode : Opcode}
    (first : firstOpcode.data = pubkey) (second : secondOpcode.value = OpCheckSig)
    (schnorr : pubkey.length = 32) :
    analyzer.detectSender sigtx firstOpcode secondOpcode = .ok (.ofPubKey pubkey) := by
  rw [detectSender, if_pos second, payToPubKey, first, if_pos schnorr]

/-- An ECDSA key before `OpCheckSig` panics. -/
theorem detectKrc721_eq_panicked (scriptLaws : crates.ScriptLaws) (ecdsa : pubkey.length = 33)
    {payload : List ℕ} (payloadMax : payload.length ≤ 250) (headed : Headed payload)
    (revealed : RevealsScript crates sigtx (redeemScriptOf pubkey payload))
    {model : UserOperation} (accepted : crates.parseUserOperation payload = .ok model)
    {resolvedTo resolvedRoyaltyTo : Option Address}
    (resolves : Resolves crates analyzer model resolvedTo resolvedRoyaltyTo) :
    analyzer.detectKrc721 crates sigtx = .error .panicked := by
  obtain ⟨firstOpcode, secondOpcode, first, second, detected⟩ := detectKrc721_of_redeemScript
    scriptLaws (.inr ecdsa) payloadMax headed revealed accepted resolves
  have panics : analyzer.detectSender sigtx firstOpcode secondOpcode = .error .panicked := by
    rw [detectSender, if_pos second, payToPubKey, first, if_neg (by omega)]
  rw [detected]
  simp only [operationOf, panics, bind, Except.bind, Except.map]

/-- A revealed inscription of a send is detected, whoever reveals it. -/
theorem detectKrc721_send (scriptLaws : crates.ScriptLaws) (parsesSends : crates.ParsesSends)
    (plain : JsonPlain text) (bound : tokenId < 2 ^ 64)
    (short : (utf8 (sendInscription text tokenId)).length ≤ 250)
    (read : Tick.deserialize crates.unicode text = .ok tick)
    (parsed : Tick.fromStr crates.unicode tick.asStr = .ok tick) (schnorr : pubkey.length = 32)
    (revealed : RevealsScript crates sigtx
      (redeemScriptOf pubkey (utf8 (sendInscription text tokenId))))
    (paid : sigtx.tx.outputs ≠ []) :
    ∃ operation info, analyzer.detectKrc721 crates sigtx = .ok (some operation) ∧
      operation.info = .send info ∧ info.tokenId = tokenId ∧ operation.common.tick = tick ∧
      operation.common.sender = .ofPubKey pubkey ∧
      sigtx.inputPrevTxid 0 = some info.listingUtxoTxid := by
  have accepted : crates.parseUserOperation (utf8 (sendInscription text tokenId)) =
      .ok (sendOperation tokenId tick) :=
    (parsesSends.eq_ok_iff plain bound).2 ⟨tick, read, rfl⟩
  obtain ⟨firstOpcode, secondOpcode, first, second, detected⟩ :=
    @detectKrc721_of_redeemScript crates analyzer sigtx pubkey scriptLaws (.inl schnorr) _
      short (headed_sendInscription text tokenId)
      revealed _ accepted none none resolves_sendOperation
  obtain ⟨signature, item, tail, _, signed⟩ := revealed
  obtain ⟨output, outputs, hasOutput⟩ := List.exists_cons_of_ne_nil paid
  obtain ⟨input, inputs, hasInput⟩ : ∃ input inputs, sigtx.tx.inputs = input :: inputs := by
    cases found : sigtx.tx.inputs with
    | nil => simp [ContextTransaction.signatureScript, found] at signed
    | cons input inputs => exact ⟨input, inputs, rfl⟩
  have prev : sigtx.inputPrevTxid 0 = some input.previousOutpoint.transactionId := by
    simp [ContextTransaction.inputPrevTxid, hasInput]
  have amount : sigtx.outputAmt 0 = some output.value := by
    simp [ContextTransaction.outputAmt, hasOutput]
  have info (toParam : Option ScriptPublicKey) (royaltyTo sender : ScriptPublicKey) :
      analyzer.infoOf crates sigtx (sendOperation tokenId tick) toParam royaltyTo sender tick =
        .ok (.send ⟨tokenId, output.value, sigtx.outputSpk 1,
          input.previousOutpoint.transactionId⟩) := by
    change detectSend sigtx (sendOperation tokenId tick) = _
    unfold detectSend
    rw [amount, prev]
    rfl
  have operation : analyzer.operationOf crates sigtx firstOpcode secondOpcode
      (sendOperation tokenId tick) none none = .ok ⟨⟨tick, sigtx.tx.id, sigtx.blockTime,
        .ofPubKey pubkey, sigtx.fee, sigtx.acceptingBlockDaaScore⟩, .send ⟨tokenId, output.value,
          sigtx.outputSpk 1, input.previousOutpoint.transactionId⟩⟩ :=
    bind_eq_ok.2 ⟨_, detectSender_eq_ofPubKey first second schnorr,
      bind_eq_ok.2 ⟨tick, orError_eq_ok.2 parsed, bind_eq_ok.2 ⟨_, info _ _ _, rfl⟩⟩⟩
  rw [operation] at detected
  exact ⟨_, _, detected, rfl, rfl, rfl, rfl, prev⟩

end Analyzer

end Krc721
