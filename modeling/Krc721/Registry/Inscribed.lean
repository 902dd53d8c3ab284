import Krc721.Analyzer.Inscribe
import Krc721.Market.Owners
import Krc721.Registry.Simulation

/-! From an inscription to the registry: what becomes of a transaction that reveals the inscription
of a transfer or of a listing, or the redeem script of a listing. -/

set_option autoImplicit false

namespace Krc721

open OrderedStore SymbolStream TokenRegistry

/-- The payload is an inscription on one token. -/
def Asks (crates : Crates) (payload : List ℕ) (op : Op) (tick : Tick) (tokenId : ℕ)
    (toAddress : Option String) : Prop :=
  ∃ model, crates.parseUserOperation payload = .ok model ∧ model.op = op ∧
    model.tokenId = some tokenId ∧ model.toAddress = toAddress ∧ model.royaltyTo = none ∧
    Tick.fromStr crates.unicode model.tick.asStr = .ok tick

/-- The redeem script that `compute_listing_p2sh` makes for the listing of a token. -/
def listingScript (unicode : Unicode) (pubkey : List ℕ) (tick : Tick) (tokenId : ℕ) : List ℕ :=
  redeemScriptOf pubkey (utf8 (sendInscription (unicode.toLowercase tick.asStr) tokenId))

/-- What an operation shares with the others that its transaction could ask for. -/
def ContextTransaction.commonOf (sigtx : ContextTransaction) (tick : Tick)
    (sender : ScriptPublicKey) : OperationCommon where
  tick := tick
  txId := sigtx.tx.id
  blockTime := sigtx.blockTime
  sender := sender
  fee := sigtx.fee
  acceptingBlockDaaScore := sigtx.acceptingBlockDaaScore

/-! What is detected. -/

section

variable {crates : RevealCrates} {analyzer : Analyzer} {payload pubkey signature : List ℕ}
  {sigtx : ContextTransaction} {tick : Tick} {tokenId : ℕ} {db : Db}

theorem Asks.transfer_detected {text : String} {recipient : Address}
    (asks : Asks crates.toCrates payload .transfer tick tokenId (some text))
    (parsed : crates.parseAddress text = .ok recipient)
    (network : recipient.addressPrefix = analyzer.addressPrefix) (laws : crates.Laws)
    (revealable : Revealable payload pubkey signature) (schnorr : pubkey.length = 32)
    (inscribes : Inscribes crates payload pubkey signature sigtx) :
    analyzer.detectKrc721 crates.toCrates sigtx =
      .ok (some ⟨sigtx.commonOf tick (.ofPubKey pubkey),
        .transfer ⟨tokenId, crates.payToAddressScript recipient⟩⟩) := by
  obtain ⟨model, inscription, op, id, toAddress, royaltyTo, named⟩ := asks
  have resolves : Analyzer.Resolves crates.toCrates analyzer model (some recipient) none := by
    constructor
    case toAddress =>
      simp only [Analyzer.resolveAddress, toAddress, parsed, network, ne_eq, not_true_eq_false,
        if_false]
    case royaltyTo => simp only [Analyzer.resolveAddress, royaltyTo]
  apply Analyzer.detectKrc721_revealed laws revealable.headed revealable.fits schnorr
    (inscribes.reveals laws revealable) inscription resolves named
  simp only [Analyzer.infoOf, op, Analyzer.detectTransfer, id]
  rfl

theorem Asks.list_detected (asks : Asks crates.toCrates payload .list tick tokenId none)
    (bound : tokenId < 2 ^ 64) (laws : crates.Laws) (unicodeLaws : crates.unicode.Laws)
    (revealable : Revealable payload pubkey signature) (schnorr : pubkey.length = 32)
    (inscribes : Inscribes crates payload pubkey signature sigtx) {utxoAddress : ScriptPublicKey}
    (output : sigtx.outputSpk 0 = some utxoAddress) :
    analyzer.detectKrc721 crates.toCrates sigtx =
      .ok (some ⟨sigtx.commonOf tick (.ofPubKey pubkey),
        .list ⟨tokenId, utxoAddress, listingScript crates.unicode pubkey tick tokenId⟩⟩) := by
  obtain ⟨model, inscription, op, id, toAddress, royaltyTo, named⟩ := asks
  have resolves : Analyzer.Resolves crates.toCrates analyzer model none none := by
    constructor
    case toAddress => simp only [Analyzer.resolveAddress, toAddress]
    case royaltyTo => simp only [Analyzer.resolveAddress, royaltyTo]
  have revealed := inscribes.reveals laws revealable
  obtain ⟨isText, _, _⟩ := Tick.IsValid.exists_text ⟨_, named⟩ unicodeLaws
  obtain ⟨address, computed⟩ := laws.toScriptLaws.computeListingP2sh_eq unicodeLaws (.inl schnorr)
    isText.maxLength bound analyzer.addressPrefix
  have seller : crates.senderPubkeyBytes sigtx = some pubkey := by
    obtain ⟨envelope, first, _, _, reveals⟩ :=
      revealed.exists_envelope_of_fits laws.toScriptLaws (.inl schnorr) revealable.headed
        revealable.fits
    rw [Analyzer.senderPubkeyBytes_eq_some_iff reveals, first.data_eq]
    exact ⟨first.isPushOpcode, .inl schnorr, rfl⟩
  apply Analyzer.detectKrc721_revealed laws revealable.headed revealable.fits schnorr revealed
    inscription resolves named
  simp only [Analyzer.infoOf, op, Analyzer.detectList, id, seller, okOr, output, bind, Except.bind,
    computed, listingScript]

end

/-! What is accepted. -/

section

variable {crates : RevealCrates} {analyzer : Analyzer} {payload pubkey signature : List ℕ}
  {sigtx : ContextTransaction} {tick : Tick} {tokenId : ℕ} {db : Db}

/-- The inscription of a transfer moves the token to the address that it names if it is signed by
the owner and the token is not on offer, and changes nothing otherwise. -/
theorem Asks.transfers {text : String} {recipient : Address}
    (asks : Asks crates.toCrates payload .transfer tick tokenId (some text))
    (parsed : crates.parseAddress text = .ok recipient)
    (network : recipient.addressPrefix = analyzer.addressPrefix) (laws : crates.Laws)
    (revealable : Revealable payload pubkey signature) (schnorr : pubkey.length = 32)
    (inscribes : Inscribes crates payload pubkey signature sigtx) (db : Db) (score entropy : ℕ) :
    ∃ operation db' checked,
      analyzer.detectKrc721 crates.toCrates sigtx = .ok (some operation) ∧
      applyOperation crates.toKaspa db ⟨score, operation, entropy⟩ = .ok (db', checked) ∧
      (checked.error = none ↔
        db.toLedger.view.owner (tick, tokenId) = some (.ofPubKey pubkey) ∧
          db.toLedger.view.offer (tick, tokenId) = none) ∧
      (checked.error = none → db'.toLedger.view = { db.toLedger.view with
        owner := Function.update db.toLedger.view.owner (tick, tokenId)
          (some (crates.payToAddressScript recipient)) }) ∧
      (checked.error ≠ none → db' = db) := by
  have detected := asks.transfer_detected parsed network laws revealable schnorr inscribes
  obtain ⟨db', checked, success, accepts, moved, refused⟩ :=
    @settles_trade crates.toKaspa db ⟨_, .transfer ⟨tokenId, _⟩⟩ trivial (by simp) score entropy
  refine ⟨_, db', checked, detected, success, accepts, ?_, refused⟩
  intro accepted
  rw [moved accepted]
  apply Registry.ext
  · rfl
  · exact Registry.owner_transfer
  · rfl
  · rfl

/-- The inscription of a listing opens an offer if it is signed by the owner, the token is not on
offer yet and the first output is locked by the redeem script, and changes nothing otherwise. -/
theorem Asks.lists (asks : Asks crates.toCrates payload .list tick tokenId none)
    (processing : UnforkedProcessing crates.toKaspa db ∨ FittingProcessing crates.toKaspa db)
    (bound : tokenId < 2 ^ 64) (laws : crates.Laws) (unicodeLaws : crates.unicode.Laws)
    (revealable : Revealable payload pubkey signature) (schnorr : pubkey.length = 32)
    (inscribes : Inscribes crates payload pubkey signature sigtx) {utxoAddress : ScriptPublicKey}
    (output : sigtx.outputSpk 0 = some utxoAddress) (score entropy : ℕ) :
    ∃ operation db' checked,
      analyzer.detectKrc721 crates.toCrates sigtx = .ok (some operation) ∧
      applyOperation crates.toKaspa db ⟨score, operation, entropy⟩ = .ok (db', checked) ∧
      (checked.error = none ↔
        db.toLedger.view.owner (tick, tokenId) = some (.ofPubKey pubkey) ∧
          db.toLedger.view.offer (tick, tokenId) = none ∧
          crates.payToScriptHashScript (listingScript crates.unicode pubkey tick tokenId) =
            utxoAddress) ∧
      (checked.error = none → db'.toLedger.view = { db.toLedger.view with
        offer := Function.update db.toLedger.view.offer (tick, tokenId) (some sigtx.tx.id) }) ∧
      (checked.error ≠ none → db' = db) := by
  have detected := @Asks.list_detected crates analyzer payload pubkey signature sigtx tick tokenId
    asks bound laws unicodeLaws revealable schnorr inscribes utxoAddress output
  obtain ⟨db', checked, success, accepts, offered, refused⟩ :=
    @settles_trade crates.toKaspa db ⟨sigtx.commonOf tick (.ofPubKey pubkey),
      .list ⟨tokenId, utxoAddress, listingScript crates.unicode pubkey tick tokenId⟩⟩ trivial
      (fun _ _ owned => Processing.registered processing owned) score entropy
  refine ⟨_, db', checked, detected, success, accepts, ?_, refused⟩
  intro accepted
  rw [offered accepted]
  rfl

end

/-! Alice transfers or lists the token that she deployed, and bob buys it. -/

namespace Sample

def bobAddress : Address := ⟨.mainnet, .pubKey, List.replicate 32 2⟩

/-- The crates with what they make of the address of bob. -/
def addressed : Crates where
  toKaspa := market
  unicode := crates.unicode
  deserializeNextOpcode := crates.deserializeNextOpcode
  addData := crates.addData
  addOp := crates.addOp
  addI64 := crates.addI64
  extractScriptPubKeyAddress := crates.extractScriptPubKeyAddress
  payToAddressScript := crates.payToAddressScript
  parseAddress text :=
    if text = Ascii.addressText bobAddress then .ok bobAddress else .error .invalidAddress
  addressErrorText := crates.addressErrorText
  parseUserOperation := crates.parseUserOperation

def signing (crates : Crates) : RevealCrates where
  toCrates := crates
  payToScriptHashSignatureScript redeemScript signature :=
    (Ascii.addData redeemScript []).map (signature ++ ·)

theorem signing_laws {crates : Crates} (scriptLaws : crates.ScriptLaws) :
    (signing crates).Laws where
  toScriptLaws := scriptLaws
  signatureScript := by
    intro redeemScript signature long short
    have fits : ¬ MAX_SCRIPTS_SIZE < ([] ++ dataPush redeemScript).length := by
      have le := length_dataPush_le redeemScript
      unfold MAX_SCRIPT_ELEMENT_SIZE at short
      unfold MAX_SCRIPTS_SIZE
      simp only [List.nil_append]
      omega
    change (Ascii.addData redeemScript []).map (signature ++ ·) = _
    unfold Ascii.addData
    rw [Ascii.canonicalPush_eq long, if_neg (not_lt.2 short), if_neg fits]
    rfl

theorem addressed_scriptLaws : addressed.ScriptLaws :=
  ⟨scriptLaws.addData, scriptLaws.addOp, scriptLaws.addZero, scriptLaws.readsData,
    scriptLaws.readsOp, scriptLaws.extractScriptHash⟩

/-- The block that carries the deployment only. -/
def deployOnly : Mergeset where
  operations := [⟨0, 0, deployOperation⟩]
  entropy := 5
  blueScore := 1
  acceptedChainBlockHash := 101

theorem deployOnly_admissible : Admissible market .new [deployOnly] where
  valid := by
    have valid : deployOnly.Valid market := {
      within := by decide
      ascending := by decide
      distinct := by decide
      sound := by
        simp only [deployOnly, deployOperation, Operation.Sound, List.forall_mem_cons,
          OperationInfo.deploy.injEq, forall_eq', List.not_mem_nil, false_implies, implies_true,
          and_true]
        exact ⟨by decide, by decide⟩
      fits := by decide }
    simpa using valid
  ascending := by decide
  unforked := .new _

theorem exists_deployed : ∃ db, UnforkedReachable market db ∧
    db.toLedger.view.owner (tick, 1) = some alice ∧
    db.toLedger.view.offer (tick, 1) = none := by
  obtain ⟨db, diff, success, owned, offered⟩ : ∃ db diff,
      processAdditions market .new [deployOnly] = .ok (db, diff) ∧
        db.toLedger.view.owner (tick, 1) = some alice ∧
        db.toLedger.view.offer (tick, 1) = none :=
    ⟨_, _, rfl, rfl, rfl⟩
  exact ⟨db, .addition .new deployOnly_admissible.toBatch deployOnly_admissible.unforked success,
    owned, offered⟩

/-- What a transaction is signed with, whose redeem script is small enough. -/
theorem revealable {payload : List ℕ} (headed : Headed payload)
    (payloadMax : payload.length ≤ 250) :
    Revealable payload aliceKey (List.replicate 65 9) where
  headed := headed
  key := by decide
  signatureMin := by decide
  signatureMax := by decide
  fits := by
    have le := length_redeemScriptOf_le aliceKey payload
    have key : aliceKey.length = 32 := rfl
    unfold MAX_SCRIPT_ELEMENT_SIZE
    omega

def transferFields : List (List Char × List Char) :=
  Ascii.tokenFields "transfer" "A" 1 ++ [("to".toList, (Ascii.addressText bobAddress).toList)]

theorem userOperationOf_transferFields : Ascii.userOperationOf transferFields =
    some { sendOperation 1 tick with
      op := .transfer
      toAddress := some (Ascii.addressText bobAddress) } := by
  have read : Tick.deserialize Ascii.unicode "A" = .ok tick := deserialize_tick
  have id : Ascii.numberField transferFields "tokenId" = some (some 1) := by
    change (Ascii.parseNumber (Nat.toDigits 10 1)).map some = _
    rw [Ascii.parseNumber_toDigits (by decide)]
    rfl
  have op : Ascii.parseOp "transfer".toList = some .transfer := rfl
  have absent {name : String} (missing : transferFields.lookup name.toList = none) :
      Ascii.numberField transferFields name = some none := by
    rw [Ascii.numberField, missing]
  have other {name : String} (missing : transferFields.lookup name.toList = none) :
      Ascii.textField transferFields name = none := by
    rw [Ascii.textField, missing]
    rfl
  have protocol : transferFields.lookup "p".toList = some "krc-721".toList := rfl
  have opField : transferFields.lookup "op".toList = some "transfer".toList := rfl
  have tickField : transferFields.lookup "tick".toList = some "A".toList := rfl
  have toField : Ascii.textField transferFields "to" = some (Ascii.addressText bobAddress) := by
    change some (String.ofList (Ascii.addressText bobAddress).toList) = _
    rw [String.ofList_toList]
  unfold Ascii.userOperationOf
  rw [protocol, opField, Option.bind_some, op, tickField, id, @absent "max" rfl,
    @absent "royaltyFee" rfl, @absent "daaMintStart" rfl, @absent "discountFee" rfl,
    @absent "premint" rfl, @other "buri" rfl, toField, @other "royaltyTo" rfl]
  simp only [Option.bind_some, bind, String.ofList_toList, if_true, read]
  rfl

theorem unquoted_transferFields : Ascii.Unquoted transferFields := by
  unfold Ascii.Unquoted
  decide +kernel

def transferPayload : List ℕ := utf8 (String.ofList (Ascii.objectText transferFields))

theorem transferPayload_asks : Asks addressed transferPayload .transfer tick 1
    (some (Ascii.addressText bobAddress)) := by
  have parsed := Ascii.parseUserOperation_objectText (List.cons_ne_nil _ _)
    unquoted_transferFields userOperationOf_transferFields
  exact ⟨_, parsed, rfl, rfl, rfl, rfl,
    Tick.IsValid.fromStr_asStr ⟨"A", fromStr_tick⟩ unicodeLaws⟩

theorem listFields_asks : Asks crates
    (utf8 (String.ofList (Ascii.objectText (listFields "A")))) .list tick 1 none := by
  have unquoted : Ascii.Unquoted (listFields "A") :=
    Ascii.unquoted_tokenFields (by decide) (by decide) 1
  have operation : Ascii.userOperationOf (listFields "A") =
      some { sendOperation 1 tick with op := .list } := by
    have read : Tick.deserialize Ascii.unicode "A" = .ok tick := deserialize_tick
    rw [listFields, @Ascii.userOperationOf_tokenFields "list" .list rfl "A" 1 (by decide), read]
    rfl
  have parsed := Ascii.parseUserOperation_objectText (List.cons_ne_nil _ _) unquoted operation
  exact ⟨_, parsed, rfl, rfl, rfl, rfl,
    Tick.IsValid.fromStr_asStr ⟨"A", fromStr_tick⟩ unicodeLaws⟩

theorem inscribing_inscribes {crates : Crates} (scriptLaws : crates.ScriptLaws)
    (txId : TransactionId) (spent : TransactionOutpoint) {fields : List (List Char × List Char)}
    (payloadMax : (utf8 (String.ofList (Ascii.objectText fields))).length ≤ 250)
    (headed : Headed (utf8 (String.ofList (Ascii.objectText fields)))) (fee : ℕ)
    (outputs : List TransactionOutput) :
    Inscribes (signing crates) (utf8 (String.ofList (Ascii.objectText fields))) aliceKey
      (List.replicate 65 9) (inscribing txId spent fields fee outputs) := by
  obtain ⟨built, _⟩ := (revealable headed payloadMax).built (signing_laws scriptLaws)
  refine ⟨_, built, ?_⟩
  rw [← List.append_nil (dataPush (redeemScriptOf _ _))]
  rfl

/-- Alice transfers her token to bob. -/
def transferring : ContextTransaction := inscribing 4 ⟨1, 0⟩ transferFields 0 [⟨50, alice⟩]

end Sample

theorem Asks.transfers_bob : ∃ db,
    db.toLedger.view.owner (Sample.tick, 1) = some Sample.alice ∧
      db.toLedger.view.offer (Sample.tick, 1) = none ∧
      ∃ operation db' checked,
        Sample.analyzer.detectKrc721 Sample.addressed Sample.transferring =
          .ok (some operation) ∧
        applyOperation Sample.market db ⟨9000, operation, 3⟩ = .ok (db', checked) ∧
        (checked.error = none ↔
          db.toLedger.view.owner (Sample.tick, 1) = some Sample.alice ∧
            db.toLedger.view.offer (Sample.tick, 1) = none) ∧
        (checked.error = none → db'.toLedger.view = { db.toLedger.view with
          owner := Function.update db.toLedger.view.owner (Sample.tick, 1)
            (some (Sample.addressed.payToAddressScript Sample.bobAddress)) }) ∧
        (checked.error ≠ none → db' = db) := by
  obtain ⟨db, _, owned, offered⟩ := Sample.exists_deployed
  have payloadMax : Sample.transferPayload.length ≤ 250 := by decide +kernel
  have headed : Headed Sample.transferPayload := Ascii.headed_objectText _ _
  have parsed : Sample.addressed.parseAddress (Ascii.addressText Sample.bobAddress) =
      .ok Sample.bobAddress := by
    simp only [Sample.addressed, if_true]
  exact ⟨db, owned, offered, @Asks.transfers (Sample.signing Sample.addressed) Sample.analyzer
    Sample.transferPayload Sample.aliceKey (List.replicate 65 9) Sample.transferring Sample.tick 1
    (Ascii.addressText Sample.bobAddress) Sample.bobAddress Sample.transferPayload_asks parsed rfl
    (Sample.signing_laws Sample.addressed_scriptLaws) (Sample.revealable headed payloadMax) rfl
    (Sample.inscribing_inscribes Sample.addressed_scriptLaws 4 ⟨1, 0⟩ payloadMax headed 0 _) db
    9000 3⟩

theorem Asks.lists_offer : ∃ db,
    db.toLedger.view.owner (Sample.tick, 1) = some Sample.alice ∧
      db.toLedger.view.offer (Sample.tick, 1) = none ∧
      ∃ operation db' checked,
        Sample.analyzer.detectKrc721 Sample.crates Sample.listing = .ok (some operation) ∧
        applyOperation Sample.market db ⟨9000, operation, 3⟩ = .ok (db', checked) ∧
        (checked.error = none ↔
          db.toLedger.view.owner (Sample.tick, 1) = some Sample.alice ∧
            db.toLedger.view.offer (Sample.tick, 1) = none ∧
            Sample.market.payToScriptHashScript (listingScript Sample.crates.unicode
              Sample.aliceKey Sample.tick 1) = .ofScriptHash Sample.offerHash) ∧
        (checked.error = none → db'.toLedger.view = { db.toLedger.view with
          offer := Function.update db.toLedger.view.offer (Sample.tick, 1) (some 2) }) ∧
        (checked.error ≠ none → db' = db) := by
  obtain ⟨db, run, owned, offered⟩ := Sample.exists_deployed
  have payloadMax : (utf8 (String.ofList (Ascii.objectText (Sample.listFields "A")))).length ≤
      250 := by
    decide +kernel
  have headed : Headed (utf8 (String.ofList (Ascii.objectText (Sample.listFields "A")))) :=
    Ascii.headed_objectText _ _
  have output : Sample.listing.outputSpk 0 = some (.ofScriptHash Sample.offerHash) := rfl
  have inscribes := @Sample.inscribing_inscribes Sample.crates Sample.scriptLaws 2 ⟨0, 0⟩
    (Sample.listFields "A") payloadMax headed 0
    [⟨100, .ofScriptHash Sample.offerHash⟩, ⟨70, .ofScriptHash (List.replicate 32 0)⟩]
  exact ⟨db, owned, offered, @Asks.lists (Sample.signing Sample.crates) Sample.analyzer
    (utf8 (String.ofList (Ascii.objectText (Sample.listFields "A")))) Sample.aliceKey
    (List.replicate 65 9) Sample.listing Sample.tick 1 db Sample.listFields_asks
    (.inl (.committed run)) (by decide) (Sample.signing_laws Sample.scriptLaws)
    Sample.unicodeLaws (Sample.revealable headed payloadMax) rfl inscribes _ output 9000 3⟩

end Krc721
