import Krc721.Analyzer.ListingScript

/-! `detect_krc721`: from a transaction with its context to the operation it asks for. -/

set_option autoImplicit false

namespace Krc721

open SymbolStream

def SOMPI_PER_KASPA : ℕ := 100000000

def KSPR_FEE_DEPLOY : ℕ := 1000 * SOMPI_PER_KASPA

def KSPR_FEE_MINT : ℕ := 10 * SOMPI_PER_KASPA

def MIN_ROYALTY_FEE : ℕ := SOMPI_PER_KASPA / 10

def MAX_ROYALTY_FEE : ℕ := 10000000 * SOMPI_PER_KASPA

structure Analyzer where
  restrictedTokens : Tick → Option ScriptPublicKey
  addressPrefix : Prefix
  restrictedProtocols : List String
  daaEcdsaFix : ℕ

/-- `pay_to_pub_key` asserts the length of the key. -/
def payToPubKey (addressPayload : List ℕ) : Except Failure ScriptPublicKey :=
  if addressPayload.length = 32 then .ok (.ofPubKey addressPayload)
  else .error .panicked

def payToPubKeyEcdsa (addressPayload : List ℕ) : Except Failure ScriptPublicKey :=
  if addressPayload.length = 33 then .ok (.ofPubKeyEcdsa addressPayload)
  else .error .panicked

namespace Analyzer

variable (crates : Crates) (analyzer : Analyzer) (sigtx : ContextTransaction)

/-- An optional address of the inscription, on the network of the analyzer. -/
def resolveAddress (fieldName : String) : Option String → Except Failure (Option Address)
  | none => .ok none
  | some text =>
      match crates.parseAddress text with
      | .error error => .error (.error (.nftInscriptionModelFieldValueParsingError fieldName
          (crates.addressErrorText error)))
      | .ok address =>
          if address.addressPrefix ≠ analyzer.addressPrefix then
            .error (.error (.nftInscriptionModelFieldValueParsingError fieldName
              "network mismatch"))
          else .ok (some address)

/-- The reveal transaction sender. Before the ECDSA fix an ECDSA sender is an error. -/
def detectSender (firstOpcode secondOpcode : Opcode) : Except Failure ScriptPublicKey :=
  if secondOpcode.value = OpCheckSig then payToPubKey firstOpcode.data
  else if secondOpcode.value = OpCheckSigECDSA then
    if sigtx.acceptingBlockDaaScore < analyzer.daaEcdsaFix then
      .error (.error (.addressError .invalidAddress))
    else payToPubKeyEcdsa firstOpcode.data
  else .error (.error .unknownSenderType)

/-! The six operations. -/

def detectDiscount (model : UserOperation) (toParam : Option ScriptPublicKey) :
    Except Failure OperationInfo := do
  let fee ← okOr (.opDiscountMissingValue "discount_fee") model.discountFee
  let toSpk ← okOr (.opDiscountMissingValue "to") toParam
  .ok (.discount ⟨toSpk, fee⟩)

def detectTransfer (model : UserOperation) (toParam : Option ScriptPublicKey) :
    Except Failure OperationInfo := do
  let tokenId ← okOr (.opTransferMissingValue "token_id") model.tokenId
  let transferTo ← okOr (.opTransferMissingValue "to") toParam
  .ok (.transfer ⟨tokenId, transferTo⟩)

/-- The token id of a mint is determined later, and its royalty is checked later. -/
def detectMint (toParam : Option ScriptPublicKey) (sender : ScriptPublicKey) :
    Except Failure OperationInfo :=
  if sigtx.fee < KSPR_FEE_MINT then .error (.error (.insufficientMintFee sigtx.fee))
  else .ok (.mint {
    tokenId := 0
    toSpk := toParam.getD sender
    royalty :=
      match sigtx.firstOutputAmt, sigtx.firstBeneficiary with
      | some fee, some beneficiary => some ⟨beneficiary, fee⟩
      | _, _ => none })

def detectRoyalty (royaltyTo : ScriptPublicKey) :
    Option ℕ → Except Failure (Option RoyaltyDetails)
  | none => .ok none
  | some fee =>
      if fee < MIN_ROYALTY_FEE then .error (.error .underflowRoyaltyFee)
      else if MAX_ROYALTY_FEE < fee then .error (.error .overflowRoyaltyFee)
      else .ok (some ⟨royaltyTo, fee⟩)

/-- The fee of a deployment, in the arithmetic of a `u64`. -/
def totalDeployFee (premint : ℕ) : ℕ :=
  (KSPR_FEE_DEPLOY + premint * KSPR_FEE_MINT % 2 ^ 64) % 2 ^ 64

/-- A restricted tick is deployed by its expected deployer only. -/
def checkRestricted (sender : ScriptPublicKey) (tick : Tick) : Except Failure Unit :=
  match analyzer.restrictedTokens tick with
  | some expected =>
      if expected ≠ sender then .error (.error (.restrictedTickDeploy tick expected sender))
      else .ok ()
  | none => .ok ()

def detectDeploy (model : UserOperation) (toParam : Option ScriptPublicKey)
    (royaltyTo sender : ScriptPublicKey) (tick : Tick) : Except Failure OperationInfo := do
  analyzer.checkRestricted sender tick
  let metadata ← okOr (.opDeployMissingValue "metadata") model.metadata
  if metadata.hasIncompatibleUriPrefix analyzer.restrictedProtocols then
    .error (.error (.restrictedMetadataProtocol analyzer.restrictedProtocols))
  else do
    let max ← okOr (.opDeployMissingValue "max") model.max
    if max = u64Max then .error (.error .maxSupplyOverflow)
    else
      let premint := model.premint.getD 0
      if max < premint then .error (.error (.premintGreaterThanMax max))
      else if sigtx.fee < totalDeployFee premint then
        .error (.error (.insufficientDeployFee sigtx.fee))
      else do
        let royalty ← detectRoyalty royaltyTo model.royaltyFee
        .ok (.deploy {
          metadata
          max
          deployer := toParam.getD sender
          royalty
          mintStartDaa := model.daaMintStart.getD 0
          premint })

def detectList (model : UserOperation) (tick : Tick) : Except Failure OperationInfo := do
  let tokenId ← okOr (.opListMissingValue "token_id") model.tokenId
  let senderPubkey ← okOr (.opListMissingValue "sender pubkey") (crates.senderPubkeyBytes sigtx)
  let (_, redeemScript) ← crates.computeListingP2sh senderPubkey tick.asStr tokenId
    analyzer.addressPrefix
  let utxoAddress ← okOr (.opListMissingValue "output[0] for P2SH UTXO") (sigtx.outputSpk 0)
  .ok (.list ⟨tokenId, utxoAddress, redeemScript⟩)

/-- Without a second output the send has no buyer. -/
def detectSend (model : UserOperation) : Except Failure OperationInfo := do
  let tokenId ← okOr (.opSendMissingValue "token_id") model.tokenId
  let paymentAmount ← okOr (.opSendMissingValue "output[0] payment amount") (sigtx.outputAmt 0)
  let listingUtxoTxid ← okOr (.opSendMissingValue "input[0] previous outpoint")
    (sigtx.inputPrevTxid 0)
  .ok (.send ⟨tokenId, paymentAmount, sigtx.outputSpk 1, listingUtxoTxid⟩)

def infoOf (model : UserOperation) (toParam : Option ScriptPublicKey)
    (royaltyTo sender : ScriptPublicKey) (tick : Tick) : Except Failure OperationInfo :=
  match model.op with
  | .discount => detectDiscount model toParam
  | .transfer => detectTransfer model toParam
  | .mint => detectMint sigtx toParam sender
  | .deploy => analyzer.detectDeploy sigtx model toParam royaltyTo sender tick
  | .list => analyzer.detectList crates sigtx model tick
  | .send => detectSend sigtx model

/-- The operation of an inscription, once its optional addresses are resolved. -/
def operationOf (firstOpcode secondOpcode : Opcode) (model : UserOperation)
    (resolvedTo resolvedRoyaltyTo : Option Address) : Except Failure Operation := do
  let toParam := resolvedTo.map crates.payToAddressScript
  let sender ← analyzer.detectSender sigtx firstOpcode secondOpcode
  let royaltyTo := (resolvedRoyaltyTo.map crates.payToAddressScript).getD sender
  let tick ← orError .tick (Tick.fromStr crates.unicode model.tick.asStr)
  let info ← analyzer.infoOf crates sigtx model toParam royaltyTo sender tick
  .ok {
    common := {
      tick
      txId := sigtx.tx.id
      blockTime := sigtx.blockTime
      sender
      fee := sigtx.fee
      acceptingBlockDaaScore := sigtx.acceptingBlockDaaScore }
    info }

def detectKrc721 : Except Failure (Option Operation) :=
  match sigtx.signatureScript with
  | none => .ok none
  | some signatureScript =>
      if !detectKsprHeader signatureScript then .ok none
      else do
        let opcode ← redeemOpcode (crates.parseScript signatureScript)
        let innerOpcodes ← orError .txScript (collect (crates.parseScript opcode.data))
        validateRedeemEnvelope innerOpcodes
        let firstOpcode ← indexOpcode innerOpcodes 0
        let secondOpcode ← indexOpcode innerOpcodes 1
        let secondToLastOpcode ← indexOpcode innerOpcodes (innerOpcodes.length - 2)
        checkEnvelope secondToLastOpcode.isPushOpcode "Content op is not push opcode"
        let model ← orError .serdeWithPath (crates.parseUserOperation secondToLastOpcode.data)
        let resolvedTo ← analyzer.resolveAddress crates "to" model.toAddress
        let resolvedRoyaltyTo ← analyzer.resolveAddress crates "royalty_to" model.royaltyTo
        let operation ← analyzer.operationOf crates sigtx firstOpcode secondOpcode model
          resolvedTo resolvedRoyaltyTo
        .ok (some operation)

end Analyzer

end Krc721
