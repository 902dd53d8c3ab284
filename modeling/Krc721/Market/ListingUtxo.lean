import Krc721.Analyzer.DeployBudget
import Krc721.Analyzer.Settlement
import Krc721.Processor.Escrow
import Krc721.Processor.ForkedRows

/-! The output that a listing locks. The processor works on what the analyzer detects, so a
stored listing leads back to its transaction; a send is compared with that transaction, and
not with the output. -/

set_option autoImplicit false

namespace Krc721

open OrderedStore SymbolStream

/-- Every operation of the mergesets was detected in a transaction of the chain. -/
def Analyzer.Detects (analyzer : Analyzer) (crates : Crates) (chain : Set ContextTransaction)
    (mergesets : List Mergeset) : Prop :=
  ∀ mergeset ∈ mergesets, ∀ op ∈ mergeset.operations, ∃ sigtx ∈ chain,
    analyzer.detectKrc721 crates sigtx = .ok (some op.operation)

/-- A run whose operations were detected in transactions of the chain. -/
abbrev DetectedRun (crates : Crates) (analyzer : Analyzer) (chain : Set ContextTransaction) :
    Db → Prop :=
  GuardedRun crates.toKaspa (fun _ mergesets => analyzer.Detects crates chain mergesets)
    fun _ _ _ => True

/-- Such a run in which no addition processes a fork. -/
abbrev UnforkedDetectedRun (crates : Crates) (analyzer : Analyzer)
    (chain : Set ContextTransaction) : Db → Prop :=
  UnforkedRun crates.toKaspa (fun _ mergesets => analyzer.Detects crates chain mergesets)
    fun _ _ _ => True

namespace UnforkedDetectedRun

variable {crates : Crates} {analyzer : Analyzer} {chain : Set ContextTransaction} {db : Db}

theorem logged (run : UnforkedDetectedRun crates analyzer chain db) :
    db.AllFrom fun operation => ∃ sigtx ∈ chain,
      analyzer.detectKrc721 crates sigtx = .ok (some operation) := by
  refine UnforkedRun.invariant (fun db => db.AllFrom _) run ?_ ?_ ?_ fun _ _ kept => kept
  · intro score checked logged
    simp [Db.new] at logged
  · intro db db' mergesets _ detected grown kept
    exact grown.promises detected kept
  · intro db db' removed forced _ _ rolledBack kept
    exact rolledBack.promises kept

variable {token : OwnershipKey} {listing : ListingValue}

theorem listed (run : UnforkedDetectedRun crates analyzer chain db)
    (found : db.listings.get token = some listing) :
    ∃ sigtx ∈ chain, ∃ operation info,
      analyzer.detectKrc721 crates sigtx = .ok (some operation) ∧
        operation.info = .list info ∧ operation.common.tick = token.tick ∧
        info.tokenId = token.tokenId ∧ operation.common.sender = listing.seller ∧
        operation.common.txId = listing.listingTxId ∧
        info.utxoAddress = listing.utxoAddress ∧ info.redeemScript = listing.redeemScript := by
  obtain ⟨bound, replay⟩ := run.consistent.replay
  have backed := (replay.wf.listed found).1
  obtain ⟨common, info, stored, tick, tokenId, seller, utxoAddress, redeemScript⟩ :=
    backed.logged
  obtain ⟨checked, same, txId⟩ := replay.wf.log.indexed.1 backed.indexed
  rw [stored] at same
  cases same
  obtain ⟨operation, ⟨sigtx, member, detected⟩, sameCommon, sameInfo⟩ := run.logged _ _ stored
  simp only at sameCommon sameInfo txId
  rcases sameInfo with sameInfo | ⟨_, _, _, minted⟩
  · exact ⟨sigtx, member, operation, info, detected, sameInfo.symm, sameCommon ▸ tick, tokenId,
      sameCommon ▸ seller, sameCommon ▸ txId, utxoAddress, redeemScript⟩
  · cases minted

end UnforkedDetectedRun

/-- A transaction of the chain is detected as the listing of a token. -/
def Analyzer.ListedIn (analyzer : Analyzer) (crates : Crates) (chain : Set ContextTransaction)
    (token : OwnershipKey) (txId : TransactionId) : Prop :=
  ∃ sigtx ∈ chain, ∃ operation info,
    analyzer.detectKrc721 crates sigtx = .ok (some operation) ∧ operation.info = .list info ∧
      operation.common.tick = token.tick ∧ info.tokenId = token.tokenId ∧
      operation.common.txId = txId

/-- In every run a listing names a transaction of the chain that listed its token. -/
theorem DetectedRun.listedIn {crates : Crates} {analyzer : Analyzer}
    {chain : Set ContextTransaction} {db : Db} (run : DetectedRun crates analyzer chain db)
    {token : OwnershipKey} {listing : ListingValue}
    (found : db.listings.get token = some listing) :
    analyzer.ListedIn crates chain token listing.listingTxId := by
  have sourced : db.Sourced (analyzer.ListedIn crates chain) := by
    refine Db.Sourced.of_run run fun detects mergeset inBatch op inMergeset info kind => ?_
    obtain ⟨sigtx, member, detected⟩ := detects mergeset inBatch op inMergeset
    exact ⟨sigtx, member, op.operation, info, detected, kind, rfl, rfl, rfl⟩
  exact sourced.listed found

/-! Settlement. -/

/-- The transaction is detected as a send of the token, and `process_send` accepts it. -/
def Settles (crates : Crates) (analyzer : Analyzer) (db : Db) (token : OwnershipKey)
    (sigtx : ContextTransaction) (txScore : ℕ) : Prop :=
  ∃ operation info, analyzer.detectKrc721 crates sigtx = .ok (some operation) ∧
    operation.info = .send info ∧ operation.common.tick = token.tick ∧
    info.tokenId = token.tokenId ∧ (processSend db txScore operation.common info).2 = none

/-- If the first input spends the other transaction, then it spends one of its outputs. -/
def SpendsAnOutput (sigtx : ContextTransaction) (tx : Transaction) : Prop :=
  ∀ input, sigtx.tx.inputs.head? = some input →
    input.previousOutpoint.transactionId = tx.id →
      input.previousOutpoint.index < tx.outputs.length

/-- The first input spends the first output of the other transaction. -/
def SpendsFirstOutput (sigtx : ContextTransaction) (tx : Transaction) : Prop :=
  sigtx.tx.inputs.head?.map (·.previousOutpoint) = some ⟨tx.id, 0⟩

/-- Every send that is accepted for the token spends the first output of its listing. -/
def SettledByEscrow (crates : Crates) (analyzer : Analyzer) (db : Db) (token : OwnershipKey)
    (listingTx : Transaction) : Prop :=
  ∀ sigtx txScore, SpendsAnOutput sigtx listingTx →
    Settles crates analyzer db token sigtx txScore → SpendsFirstOutput sigtx listingTx

section Settlement

variable {crates : Crates} {analyzer : Analyzer} {db : Db} {token : OwnershipKey}
  {listing : ListingValue}

/-- `process_send` accepts a send exactly if it names the transaction of the listing. -/
theorem processSend_accepts_iff (found : db.listings.get token = some listing) (txScore : ℕ)
    {common : OperationCommon} {info : SendInfo} (tick : common.tick = token.tick)
    (tokenId : info.tokenId = token.tokenId) :
    (processSend db txScore common info).2 = none ↔
      info.listingUtxoTxid = listing.listingTxId := by
  have found : db.listings.get ⟨common.tick, info.tokenId⟩ = some listing := by
    rw [tick, tokenId]
    exact found
  simp only [processSend, found]
  split
  · rename_i different
    simpa using different
  · rename_i same
    simpa using same

/-- An accepted send spends some output of the transaction of the listing. -/
theorem Settles.spends (found : db.listings.get token = some listing)
    {sigtx : ContextTransaction} {txScore : ℕ}
    (settles : Settles crates analyzer db token sigtx txScore) :
    ∃ input, sigtx.tx.inputs.head? = some input ∧
      input.previousOutpoint.transactionId = listing.listingTxId := by
  obtain ⟨operation, info, detected, kind, tick, tokenId, accepted⟩ := settles
  have spent := Analyzer.detected_send detected kind
  rw [(processSend_accepts_iff found txScore tick tokenId).1 accepted,
    ContextTransaction.inputPrevTxid, ← List.head?_eq_getElem?, Option.map_eq_some_iff] at spent
  exact spent

/-- A send that reveals the inscription of a sale settles the listing, whichever output of the
listing transaction it spends. -/
theorem settles_of_reveals (scriptLaws : crates.ScriptLaws) (unicodeLaws : crates.unicode.Laws)
    (parsesSends : crates.ParsesSends) (found : db.listings.get token = some listing)
    (valid : Tick.IsValid crates.unicode token.tick) (bound : token.tokenId < 2 ^ 64)
    {sigtx : ContextTransaction} {pubkey : List ℕ} (schnorr : pubkey.length = 32)
    (revealed : RevealsScript crates sigtx
      (redeemScriptOf pubkey (utf8 (sendInscription token.tick.asStr token.tokenId))))
    (paid : sigtx.tx.outputs ≠ []) (spends : sigtx.inputPrevTxid 0 = some listing.listingTxId)
    (txScore : ℕ) : Settles crates analyzer db token sigtx txScore := by
  obtain ⟨isText, _, _⟩ := valid.exists_text unicodeLaws
  have short : (utf8 (sendInscription token.tick.asStr token.tokenId)).length ≤ 250 := by
    have bytes := isText.bytesLength
    have digits := length_utf8_toString_le bound
    rw [length_sendInscription]
    unfold TICK_LENGTH at bytes
    calc 50 + (utf8 token.tick.asStr).length + (utf8 (toString token.tokenId)).length
        ≤ 50 + 10 + 80 := by gcongr
      _ ≤ 250 := by decide
  obtain ⟨operation, info, detected, kind, tokenId, tick, _, spent⟩ :=
    @Analyzer.detectKrc721_send crates analyzer sigtx pubkey _ token.tick token.tokenId
      scriptLaws parsesSends (unicodeLaws.jsonPlain _ isText.alphanumeric).1 bound short
      (Tick.deserialize_eq_ok_iff_fromStr.2 (valid.fromStr_asStr unicodeLaws))
      (valid.fromStr_asStr unicodeLaws) schnorr revealed paid
  refine ⟨operation, info, detected, kind, tick, tokenId, ?_⟩
  rw [processSend_accepts_iff found txScore tick tokenId]
  exact Option.some.inj (spent.symm.trans spends)

/-- Every output of the transaction of a listing can settle the listing. -/
theorem exists_settles (scriptLaws : crates.ScriptLaws) (unicodeLaws : crates.unicode.Laws)
    (parsesSends : crates.ParsesSends) (found : db.listings.get token = some listing)
    (valid : Tick.IsValid crates.unicode token.tick) (bound : token.tokenId < 2 ^ 64)
    (txScore index : ℕ) :
    ∃ sigtx, sigtx.tx.inputs.head?.map (·.previousOutpoint) =
        some ⟨listing.listingTxId, index⟩ ∧
      Settles crates analyzer db token sigtx txScore := by
  obtain ⟨item, readsSignature, _⟩ := scriptLaws.readsData [1, 1] (by decide) (by decide)
  let sigtx : ContextTransaction := {
    tx := {
      id := 0
      inputs := [{
        previousOutpoint := ⟨listing.listingTxId, index⟩
        signatureScript := dataPush [1, 1] ++ (dataPush (redeemScriptOf (List.replicate 32 0)
          (utf8 (sendInscription token.tick.asStr token.tokenId))) ++ []) }]
      outputs := [⟨0, ⟨0, []⟩⟩] }
    fee := 0
    blockTime := 0
    acceptingBlockDaaScore := 0 }
  have revealed : RevealsScript crates sigtx (redeemScriptOf (List.replicate 32 0)
      (utf8 (sendInscription token.tick.asStr token.tokenId))) :=
    ⟨_, _, _, readsSignature, rfl⟩
  exact ⟨sigtx, rfl, settles_of_reveals scriptLaws unicodeLaws parsesSends found valid bound rfl
    revealed (by simp [sigtx]) rfl txScore⟩

end Settlement

/-- A listing leads back to a transaction that listed its token, whose first output it captured
if no fork was processed. Only that output can settle it exactly if the transaction has no other
output. -/
theorem DetectedRun.settledByEscrow_iff {crates : Crates} {analyzer : Analyzer}
    {chain : Set ContextTransaction} {db : Db} {token : OwnershipKey} {listing : ListingValue}
    (scriptLaws : crates.ScriptLaws) (unicodeLaws : crates.unicode.Laws)
    (parsesSends : crates.ParsesSends) (idsFit : crates.TokenIdsFit)
    (run : DetectedRun crates analyzer chain db)
    (found : db.listings.get token = some listing) :
    ∃ listingTx ∈ chain, listingTx.tx.id = listing.listingTxId ∧
      (UnforkedDetectedRun crates analyzer chain db →
        listingTx.outputSpk 0 = some listing.utxoAddress) ∧
      (SettledByEscrow crates analyzer db token listingTx.tx ↔
        listingTx.tx.outputs.length = 1) := by
  obtain ⟨listingTx, member, operation, info, detected, kind, tick, tokenId, txId, captured⟩ :
      ∃ listingTx ∈ chain, ∃ operation info,
        analyzer.detectKrc721 crates listingTx = .ok (some operation) ∧
          operation.info = .list info ∧ operation.common.tick = token.tick ∧
          info.tokenId = token.tokenId ∧ operation.common.txId = listing.listingTxId ∧
          (UnforkedDetectedRun crates analyzer chain db →
            info.utxoAddress = listing.utxoAddress) := by
    by_cases unforked : UnforkedDetectedRun crates analyzer chain db
    · obtain ⟨sigtx, member, operation, info, detected, kind, tick, tokenId, _, txId, captured,
        _⟩ := unforked.listed found
      exact ⟨sigtx, member, operation, info, detected, kind, tick, tokenId, txId,
        fun _ => captured⟩
    · obtain ⟨sigtx, member, operation, info, detected, kind, tick, tokenId, txId⟩ :=
        run.listedIn found
      exact ⟨sigtx, member, operation, info, detected, kind, tick, tokenId, txId,
        fun run => absurd run unforked⟩
  obtain ⟨_, _, _, valid, bound, _, _, sameId, output⟩ :=
    Analyzer.detected_listing idsFit detected kind
  rw [tick] at valid
  rw [tokenId] at bound
  have isListing : listingTx.tx.id = listing.listingTxId := sameId.symm.trans txId
  refine ⟨listingTx, member, isListing, fun unforked => captured unforked ▸ output, ?_, ?_⟩
  · intro settled
    by_contra several
    have second : 1 < listingTx.tx.outputs.length := by
      rw [ContextTransaction.outputSpk, Option.map_eq_some_iff] at output
      obtain ⟨first, stored, _⟩ := output
      have positive := (List.getElem?_eq_some_iff.1 stored).1
      omega
    obtain ⟨sigtx, spent, settles⟩ := @exists_settles crates analyzer db token listing scriptLaws
      unicodeLaws parsesSends found valid bound 0 1
    have existing : SpendsAnOutput sigtx listingTx.tx := by
      intro input first _
      rw [first, Option.map_some, Option.some.injEq] at spent
      rw [spent]
      exact second
    have escrow := settled sigtx 0 existing settles
    rw [SpendsFirstOutput, spent] at escrow
    simp at escrow
  · intro single sigtx txScore existing settles
    obtain ⟨input, first, spends⟩ := settles.spends found
    have index := existing input first (spends.trans isListing.symm)
    rw [single, Nat.lt_one_iff] at index
    rw [SpendsFirstOutput, first, Option.map_some, isListing, ← spends, ← index]

/-! A listing transaction with a second output. -/

namespace Sample

def listFields (text : String) : List (List Char × List Char) := Ascii.tokenFields "list" text 1

def deployment : ContextTransaction := deploying 3 1 101000000000

def bobKey : List ℕ := List.replicate 32 2

/-- The redeem script of bob for the same inscription. -/
def changeScript : List ℕ := redeemScriptOf bobKey (utf8 (sendInscription "A" 1))

/-- The listing transaction also pays to the redeem script of bob. -/
def listing : ContextTransaction :=
  inscribing 2 ⟨0, 0⟩ (listFields "A") 0
    [⟨100, .ofScriptHash offerHash⟩, ⟨70, .ofScriptHash (List.replicate 32 0)⟩]

/-- Bob spends the second output of the listing transaction. -/
def changeSpending : ContextTransaction :=
  revealing 3 ⟨2, 1⟩ changeScript [] 0 [⟨50, bob⟩, ⟨20, bob⟩]

def deployOperation : Operation :=
  ⟨⟨tick, 1, 0, alice, 101000000000, 20⟩, .deploy ⟨.remote "ipfs", 3, alice, none, 0, 1⟩⟩

def listOperation : Operation :=
  ⟨⟨tick, 2, 0, alice, 0, 20⟩, .list ⟨1, .ofScriptHash offerHash, offerScript⟩⟩

theorem deployment_detected :
    analyzer.detectKrc721 crates deployment = .ok (some deployOperation) :=
  deploying_detected (by decide) (by decide) (by decide)

theorem listing_detected :
    analyzer.detectKrc721 crates listing = .ok (some listOperation) := by
  have unquoted : Ascii.Unquoted (listFields "A") :=
    Ascii.unquoted_tokenFields (by decide) (by decide) 1
  have operation : Ascii.userOperationOf (listFields "A") =
      some { sendOperation 1 tick with op := .list } := by
    have read : Tick.deserialize Ascii.unicode "A" = .ok tick := deserialize_tick
    rw [listFields, @Ascii.userOperationOf_tokenFields "list" .list rfl "A" 1 (by decide), read]
    rfl
  have parsed : Tick.fromStr crates.unicode tick.asStr = .ok tick :=
    Tick.IsValid.fromStr_asStr ⟨"A", fromStr_tick⟩ unicodeLaws
  have payloadMax : (utf8 (String.ofList (Ascii.objectText (listFields "A")))).length ≤ 250 := by
    decide +kernel
  have headed : Headed (utf8 (String.ofList (Ascii.objectText (listFields "A")))) :=
    Ascii.headed_objectText _ _
  obtain ⟨envelope, pushes, _, _, reveals⟩ := RevealsScript.exists_envelope scriptLaws
    (.inl rfl) payloadMax headed (revealing_reveals 2 ⟨0, 0⟩
      (redeemScriptOf aliceKey (utf8 (String.ofList (Ascii.objectText (listFields "A"))))) [] 0
        [⟨100, .ofScriptHash offerHash⟩, ⟨70, .ofScriptHash (List.replicate 32 0)⟩])
  have sender : crates.senderPubkeyBytes listing = some aliceKey := by
    refine (Analyzer.senderPubkeyBytes_eq_some_iff reveals).2 ⟨pushes.isPushOpcode, .inl ?_,
      pushes.data_eq⟩
    rw [pushes.data_eq]
    rfl
  obtain ⟨address, computed⟩ := Analyzer.computeListingP2sh_offer
  have asks : analyzer.infoOf crates listing { sendOperation 1 tick with op := .list } none alice
      alice tick = .ok listOperation.info :=
    bind_eq_ok.2 ⟨1, rfl, bind_eq_ok.2 ⟨aliceKey, okOr_eq_ok.2 sender,
      bind_eq_ok.2 ⟨_, computed, rfl⟩⟩⟩
  have nonempty : listFields "A" ≠ [] := List.cons_ne_nil _ _
  exact inscribing_detected nonempty unquoted operation rfl rfl payloadMax headed
    parsed asks

/-- The block that carries the deployment and the listing. -/
def offerBlock : Mergeset where
  operations := [⟨0, 0, deployOperation⟩, ⟨0, 1, listOperation⟩]
  entropy := 5
  blueScore := 1
  acceptedChainBlockHash := 101

theorem offerBlock_valid : offerBlock.Valid market where
  within := by decide
  ascending := by decide
  distinct := by decide
  sound := by
    simp only [offerBlock, deployOperation, listOperation, Operation.Sound, List.forall_mem_cons,
      OperationInfo.deploy.injEq, forall_eq', reduceCtorEq, false_implies, implies_true,
      List.not_mem_nil, and_true]
    exact ⟨by decide, by decide⟩
  fits := by decide

theorem offerBlock_admissible : Admissible market .new [offerBlock] where
  valid := by simpa using offerBlock_valid
  ascending := by decide
  unforked := .new _

def offerKey : OwnershipKey := ⟨tick, 1⟩

theorem exists_offer : ∃ db offer, UnforkedDetectedRun crates analyzer {deployment, listing} db ∧
    db.listings.get offerKey = some offer ∧ offer.listingTxId = 2 := by
  obtain ⟨db, diff, offer, success, found, txId⟩ : ∃ db diff offer,
      processAdditions market .new [offerBlock] = .ok (db, diff) ∧
        db.listings.get offerKey = some offer ∧ offer.listingTxId = 2 :=
    ⟨_, _, _, rfl, rfl, rfl⟩
  refine ⟨db, offer, UnforkedRun.added .new offerBlock_admissible ?_ success, found, txId⟩
  simp only [Analyzer.Detects, List.forall_mem_cons, offerBlock, List.not_mem_nil, false_implies,
    implies_true, and_true]
  exact ⟨⟨deployment, .inl rfl, deployment_detected⟩, ⟨listing, .inr rfl, listing_detected⟩⟩

end Sample

theorem DetectedRun.settledByEscrow_iff_offer :
    ∃ db offer, ∃ listingTx ∈ ({Sample.deployment, Sample.listing} : Set ContextTransaction),
      db.listings.get Sample.offerKey = some offer ∧ listingTx.tx.id = offer.listingTxId ∧
      listingTx.outputSpk 0 = some offer.utxoAddress ∧
      (SettledByEscrow Sample.crates Sample.analyzer db Sample.offerKey listingTx.tx ↔
        listingTx.tx.outputs.length = 1) := by
  obtain ⟨db, offer, run, found, _⟩ := Sample.exists_offer
  have wide : DetectedRun Sample.crates Sample.analyzer {Sample.deployment, Sample.listing} db :=
    run.mono And.right id
  obtain ⟨listingTx, member, sameId, output, settled⟩ := DetectedRun.settledByEscrow_iff
    Sample.scriptLaws Sample.unicodeLaws Sample.parsesSends Sample.tokenIdsFit wide found
  exact ⟨db, offer, listingTx, member, found, sameId, output run, settled⟩

/-- Bob's send settles the listing of alice without spending its escrow output. -/
theorem offer_settled_by_change : ∃ db offer,
    UnforkedDetectedRun Sample.crates Sample.analyzer {Sample.deployment, Sample.listing} db ∧
      db.listings.get Sample.offerKey = some offer ∧
      offer.listingTxId = Sample.listing.tx.id ∧
      Sample.listing.outputSpk 1 =
        some (Sample.crates.payToScriptHashScript Sample.changeScript) ∧
      SpendsAnOutput Sample.changeSpending Sample.listing.tx ∧
      Settles Sample.crates Sample.analyzer db Sample.offerKey Sample.changeSpending 9 ∧
      ¬ SpendsFirstOutput Sample.changeSpending Sample.listing.tx ∧
      ¬ SettledByEscrow Sample.crates Sample.analyzer db Sample.offerKey Sample.listing.tx := by
  obtain ⟨db, offer, run, found, txId⟩ := Sample.exists_offer
  have different : Sample.changeScript ≠ Sample.offerScript := fun same =>
    absurd (congrArg (·[1]?) same) (by decide)
  have other : Sample.crates.payToScriptHashScript Sample.changeScript =
      .ofScriptHash (List.replicate 32 0) := by
    change Sample.market.payToScriptHashScript Sample.changeScript = _
    simp only [Sample.market, if_neg different]
  have existing : SpendsAnOutput Sample.changeSpending Sample.listing.tx := by
    rintro input first _
    cases first
    decide
  have settles : Settles Sample.crates Sample.analyzer db Sample.offerKey Sample.changeSpending
      9 := by
    have revealed : RevealsScript Sample.crates Sample.changeSpending (redeemScriptOf
        Sample.bobKey (utf8 (sendInscription Sample.tick.asStr 1))) := by
      rw [Analyzer.asStr_tick]
      exact Sample.revealing_reveals _ _ _ _ _ _
    exact settles_of_reveals Sample.scriptLaws Sample.unicodeLaws Sample.parsesSends found
      ⟨"A", Sample.fromStr_tick⟩ (by decide) rfl revealed
      (by simp [Sample.changeSpending, Sample.revealing]) (txId ▸ rfl) 9
  have notFirst : ¬ SpendsFirstOutput Sample.changeSpending Sample.listing.tx := by
    simp [SpendsFirstOutput, Sample.changeSpending, Sample.revealing]
  refine ⟨db, offer, run, found, txId, ?_, existing, settles, notFirst, fun settled =>
    notFirst (settled _ _ existing settles)⟩
  rw [other]
  rfl

end Krc721
