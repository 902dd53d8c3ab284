import Krc721.Analyzer.Sender

/-! The settlement of a listing: the operation that a transaction asks for when it reveals the
redeem script of a listing. -/

set_option autoImplicit false

namespace Krc721

open SymbolStream

/-! The send of a revealed listing. -/

/-- The operation sends the token in the name of the sender. -/
structure Operation.Sends (operation : Operation) (tick : Tick) (tokenId : ℕ)
    (sender : ScriptPublicKey) : Prop where
  info : ∃ info, operation.info = .send info ∧ info.tokenId = tokenId
  tick : operation.common.tick = tick
  sender : operation.common.sender = sender

/-- The script that pays to a Schnorr key or to an ECDSA key. -/
def ScriptPublicKey.ofKey (pubkey : List ℕ) : ScriptPublicKey :=
  if pubkey.length = 32 then .ofPubKey pubkey else .ofPubKeyEcdsa pubkey

namespace Analyzer

variable {crates : Crates} {analyzer : Analyzer} {sigtx : ContextTransaction} {pubkey : List ℕ}
  {text : String} {tick : Tick} {tokenId : ℕ}

/-- The redeem script of a listing is detected as the send of the listed token by the lister
exactly if the lister has a Schnorr key, upper-casing undoes the lower-casing of the tick and the
transaction has an output. -/
theorem listing_settles_iff (scriptLaws : crates.ScriptLaws) (unicodeLaws : crates.unicode.Laws)
    (parsesSends : crates.ParsesSends) (pubkeyLength : pubkey.length = 32 ∨ pubkey.length = 33)
    (valid : Tick.IsValid crates.unicode tick) (bound : tokenId < 2 ^ 64)
    {addressPrefix : Prefix} {address : Address} {redeemScript : List ℕ}
    (listed : crates.computeListingP2sh pubkey tick.asStr tokenId addressPrefix =
      .ok (address, redeemScript))
    (revealed : RevealsScript crates sigtx redeemScript) :
    (∃ operation, analyzer.detectKrc721 crates sigtx = .ok (some operation) ∧
        operation.Sends tick tokenId (.ofKey pubkey)) ↔
      pubkey.length = 32 ∧
        crates.unicode.toUppercase (crates.unicode.toLowercase tick.asStr) = tick.asStr ∧
        sigtx.tx.outputs ≠ [] := by
  obtain ⟨isText, _, _⟩ := valid.exists_text unicodeLaws
  have payloadMax := length_sendInscription_le unicodeLaws isText.maxLength bound
  obtain ⟨address', computed⟩ := scriptLaws.computeListingP2sh_eq unicodeLaws pubkeyLength
    isText.maxLength bound addressPrefix
  rw [listed] at computed
  cases computed
  have plain := (unicodeLaws.jsonPlain _ isText.alphanumeric).2
  rw [← valid.deserialize_toLowercase_iff]
  constructor
  · rintro ⟨operation, detected, sends⟩
    obtain ⟨redeemScript, envelope, model, resolvedTo, resolvedRoyaltyTo, reveals, _, success⟩ :=
      detectKrc721_eq_ok_some detected
    obtain ⟨sent, parsed, _, asked⟩ := operationOf_eq_ok success
    obtain ⟨envelope', first, second, content, reveals'⟩ := revealed.exists_envelope scriptLaws
      pubkeyLength payloadMax (headed_sendInscription _ _)
    obtain ⟨sameFirst, sameSecond, sameContent⟩ := reveals.toRevealsEnvelope.unique reveals'
    have schnorr : pubkey.length = 32 := by
      rw [detectSender, sameSecond, if_pos second, payToPubKey, sameFirst, first.data_eq] at sent
      split at sent
      · assumption
      · cases sent
    have inscription := reveals.inscription
    rw [sameContent, content] at inscription
    obtain ⟨read, deserialized, rfl⟩ := (parsesSends.eq_ok_iff plain bound).1 inscription
    have again := Tick.IsValid.fromStr_asStr
      ⟨_, Tick.deserialize_eq_ok_iff_fromStr.1 deserialized⟩ unicodeLaws
    rw [sends.tick] at parsed
    have same : read = tick := Except.ok.inj (again.symm.trans parsed)
    rw [same] at deserialized
    obtain ⟨_, _, asked⟩ := bind_eq_ok.1 asked
    obtain ⟨amount, first, _⟩ := bind_eq_ok.1 asked
    refine ⟨schnorr, deserialized, fun unpaid => ?_⟩
    rw [ContextTransaction.outputAmt, unpaid] at first
    cases first
  · rintro ⟨schnorr, read, paid⟩
    obtain ⟨operation, info, detected, kind, id, sameTick, sender, _⟩ :=
      @detectKrc721_send crates analyzer sigtx pubkey _ tick tokenId scriptLaws parsesSends plain
        bound payloadMax read (valid.fromStr_asStr unicodeLaws) schnorr revealed paid
    refine ⟨operation, detected, ⟨info, kind, id⟩, sameTick, ?_⟩
    rw [sender, ScriptPublicKey.ofKey, if_pos schnorr]

theorem asStr_tick : Sample.tick.asStr = "A" := by
  obtain ⟨isText, same⟩ := Tick.fromStr_eq_ok_iff.1 Sample.fromStr_tick
  rw [same, Tick.asStr_ofText]
  decide

theorem computeListingP2sh_offer : ∃ address,
    Sample.crates.computeListingP2sh Sample.aliceKey Sample.tick.asStr 1 .mainnet =
      .ok (address, Sample.offerScript) := by
  have lower : Sample.crates.unicode.toLowercase "A" = "a" := by decide
  obtain ⟨address, computed⟩ := @Crates.ScriptLaws.computeListingP2sh_eq Sample.crates
    Sample.scriptLaws Sample.unicodeLaws Sample.aliceKey "A" 1 (.inl rfl) (by decide) (by decide)
    .mainnet
  rw [lower] at computed
  refine ⟨address, ?_⟩
  rw [asStr_tick]
  exact computed

theorem listing_settles_iff_offer : ∃ address,
    Sample.crates.computeListingP2sh Sample.aliceKey Sample.tick.asStr 1 .mainnet =
        .ok (address, Sample.offerScript) ∧
      ((∃ operation, Sample.analyzer.detectKrc721 Sample.crates
            (Sample.revealing 3 ⟨2, 0⟩ Sample.offerScript [] 0 [⟨50, Sample.bob⟩]) =
              .ok (some operation) ∧
          operation.Sends Sample.tick 1 (.ofKey Sample.aliceKey)) ↔
        Sample.aliceKey.length = 32 ∧
          Sample.crates.unicode.toUppercase
            (Sample.crates.unicode.toLowercase Sample.tick.asStr) = Sample.tick.asStr ∧
          (Sample.revealing 3 ⟨2, 0⟩ Sample.offerScript [] 0 [⟨50, Sample.bob⟩]).tx.outputs ≠
            []) := by
  obtain ⟨address, listed⟩ := computeListingP2sh_offer
  exact ⟨address, listed, listing_settles_iff Sample.scriptLaws Sample.unicodeLaws
    Sample.parsesSends (.inl rfl) ⟨"A", Sample.fromStr_tick⟩ (by decide) listed
    (Sample.revealing_reveals _ _ _ _ _ _)⟩

/-- The listing of an ECDSA key panics when it is revealed. -/
theorem listing_panics : ∃ address redeemScript,
    Sample.crates.computeListingP2sh (List.replicate 33 2) Sample.tick.asStr 1 .mainnet =
        .ok (address, redeemScript) ∧
      Sample.analyzer.detectKrc721 Sample.crates
        (Sample.revealing 3 ⟨2, 0⟩ redeemScript [] 0 [⟨50, Sample.bob⟩]) =
          .error .panicked := by
  have lower : Sample.crates.unicode.toLowercase "A" = "a" := by decide
  have upper : Sample.crates.unicode.toUppercase "a" = "A" := by decide
  have valid : Tick.IsValid Sample.crates.unicode Sample.tick := ⟨"A", Sample.fromStr_tick⟩
  have read : Tick.deserialize Sample.crates.unicode "a" = .ok Sample.tick := by
    rw [← lower, ← asStr_tick, valid.deserialize_toLowercase_iff, asStr_tick,
      lower, upper]
  obtain ⟨address, computed⟩ := @Crates.ScriptLaws.computeListingP2sh_eq Sample.crates
    Sample.scriptLaws Sample.unicodeLaws (List.replicate 33 2) "A" 1 (.inr rfl) (by decide)
    (by decide) .mainnet
  rw [lower] at computed
  rw [asStr_tick]
  have plain : JsonPlain "a" := lower ▸ (Sample.unicodeLaws.jsonPlain "A" Sample.alphanumeric).2
  refine ⟨address, _, computed, ?_⟩
  exact @detectKrc721_eq_panicked Sample.crates Sample.analyzer _ _ Sample.scriptLaws rfl _
    (by decide) (headed_sendInscription "a" 1)
    (Sample.revealing_reveals _ _ _ _ _ _) _
    ((Sample.parsesSends.eq_ok_iff plain (by decide)).2 ⟨Sample.tick, read, rfl⟩) none none
    resolves_sendOperation

/-! What a detected listing and a detected send take from their transactions. -/

/-- The key of a redeem script that is revealed. -/
theorem senderPubkeyBytes_eq_some_iff {redeemScript : List ℕ} {envelope : RedeemEnvelope}
    (reveals : RevealsEnvelope crates sigtx redeemScript envelope) :
    crates.senderPubkeyBytes sigtx = some pubkey ↔ envelope.first.isPushOpcode = true ∧
      (envelope.first.data.length = 32 ∨ envelope.first.data.length = 33) ∧
        envelope.first.data = pubkey := by
  obtain ⟨script, opcode, signed, _, redeem, rfl⟩ := reveals.script
  obtain ⟨second, _, push, _⟩ := redeemOpcode_eq_ok_iff.1 redeem
  simp only [Crates.senderPubkeyBytes, signed, second, push, Bool.not_true, Bool.false_eq_true,
    if_false, reveals.parsed, collect_map_ok, RedeemEnvelope.opcodes, List.cons_append]
  split
  · rename_i fits
    simp only [Bool.and_eq_true, Bool.or_eq_true, decide_eq_true_eq] at fits
    simp [fits]
  · rename_i misfit
    simp only [Bool.and_eq_true, Bool.or_eq_true, decide_eq_true_eq] at misfit
    refine iff_of_false (by simp) fun fits => misfit ⟨fits.1, fits.2.1⟩

theorem sender_eq_ofKey {firstOpcode secondOpcode : Opcode} {sender : ScriptPublicKey}
    (sent : analyzer.detectSender sigtx firstOpcode secondOpcode = .ok sender) :
    sender = .ofKey firstOpcode.data := by
  unfold detectSender at sent
  split at sent
  · unfold payToPubKey at sent
    split at sent
    · rename_i schnorr
      cases sent
      rw [ScriptPublicKey.ofKey, if_pos schnorr]
    · cases sent
  · split at sent
    · split at sent
      · cases sent
      · unfold payToPubKeyEcdsa at sent
        split at sent
        · rename_i ecdsa
          cases sent
          rw [ScriptPublicKey.ofKey, if_neg (by omega)]
        · cases sent
    · cases sent

/-- A detected listing has the redeem script of its sender's key, its tick and its token, and
the script of the first output. -/
theorem detected_listing (idsFit : crates.TokenIdsFit) {operation : Operation}
    {info : ListingInfo} (detected : analyzer.detectKrc721 crates sigtx = .ok (some operation))
    (kind : operation.info = .list info) :
    ∃ pubkey address, (pubkey.length = 32 ∨ pubkey.length = 33) ∧
      Tick.IsValid crates.unicode operation.common.tick ∧ info.tokenId < 2 ^ 64 ∧
      crates.computeListingP2sh pubkey operation.common.tick.asStr info.tokenId
        analyzer.addressPrefix = .ok (address, info.redeemScript) ∧
      operation.common.sender = .ofKey pubkey ∧ operation.common.txId = sigtx.tx.id ∧
      sigtx.outputSpk 0 = some info.utxoAddress := by
  obtain ⟨redeemScript, envelope, model, resolvedTo, resolvedRoyaltyTo, reveals, _, success⟩ :=
    detectKrc721_eq_ok_some detected
  obtain ⟨sent, parsed, txId, success⟩ := operationOf_eq_ok success
  rw [kind] at success
  obtain ⟨tokenId, id, success⟩ := bind_eq_ok.1 (infoOf_eq_list success)
  obtain ⟨pubkey, found, success⟩ := bind_eq_ok.1 success
  obtain ⟨⟨address, script⟩, computed, success⟩ := bind_eq_ok.1 success
  obtain ⟨utxoAddress, output, success⟩ := bind_eq_ok.1 success
  cases success
  obtain ⟨_, _, key⟩ :=
    (senderPubkeyBytes_eq_some_iff reveals.toRevealsEnvelope).1 (okOr_eq_ok.1 found)
  exact ⟨pubkey, address, length_senderPubkeyBytes (okOr_eq_ok.1 found), ⟨_, parsed⟩,
    idsFit _ _ reveals.inscription _ (okOr_eq_ok.1 id), computed, key ▸ sender_eq_ofKey sent,
    txId, okOr_eq_ok.1 output⟩

theorem detected_send {operation : Operation} {info : SendInfo}
    (detected : analyzer.detectKrc721 crates sigtx = .ok (some operation))
    (kind : operation.info = .send info) :
    sigtx.inputPrevTxid 0 = some info.listingUtxoTxid := by
  obtain ⟨_, _, _, _, _, _, _, success⟩ := detectKrc721_eq_ok_some detected
  obtain ⟨_, _, _, success⟩ := operationOf_eq_ok success
  rw [kind] at success
  obtain ⟨tokenId, _, success⟩ := bind_eq_ok.1 (infoOf_eq_send success)
  obtain ⟨amount, _, success⟩ := bind_eq_ok.1 success
  obtain ⟨txid, spent, success⟩ := bind_eq_ok.1 success
  cases success
  exact okOr_eq_ok.1 spent

end Analyzer

end Krc721
