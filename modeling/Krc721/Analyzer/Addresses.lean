import Krc721.Analyzer.Settlement

/-! The scripts of a detected operation. The sender comes from a public key and the recipients
from the addresses of the inscription; only a send copies a script from its transaction. -/

set_option autoImplicit false

namespace Krc721

open SymbolStream

/-- The scripts of an operation that are shown as addresses, besides its sender. -/
def OperationInfo.scripts : OperationInfo → List ScriptPublicKey
  | .deploy info => info.deployer :: (info.royalty.map (·.beneficiary)).toList
  | .mint info => [info.toSpk]
  | .transfer info => [info.toSpk]
  | .discount info => [info.toSpk]
  | .list _ => []
  | .send info => info.buyer.toList

/-- The script that pays to a parsed address is one of the three address scripts. -/
def Crates.PaysToAddresses (crates : Crates) : Prop :=
  ∀ text address, crates.parseAddress text = .ok address →
    (crates.payToAddressScript address).IsAddress

namespace Analyzer

variable {crates : Crates} {analyzer : Analyzer} {sigtx : ContextTransaction}

theorem detectSender_isAddress {firstOpcode secondOpcode : Opcode} {sender : ScriptPublicKey}
    (sent : analyzer.detectSender sigtx firstOpcode secondOpcode = .ok sender) :
    sender.IsAddress := by
  unfold detectSender at sent
  split at sent
  · unfold payToPubKey at sent
    split at sent
    · rename_i length
      cases sent
      exact .pubKey _ length
    · cases sent
  · split at sent
    · split at sent
      · cases sent
      · unfold payToPubKeyEcdsa at sent
        split at sent
        · rename_i length
          cases sent
          exact .pubKeyEcdsa _ length
        · cases sent
    · cases sent

theorem resolveAddress_eq_some {fieldName : String} {field : Option String} {address : Address}
    (resolved : analyzer.resolveAddress crates fieldName field = .ok (some address)) :
    ∃ text, crates.parseAddress text = .ok address := by
  cases field with
  | none => cases resolved
  | some text =>
      simp only [resolveAddress] at resolved
      split at resolved
      · cases resolved
      · rename_i found parsed
        split at resolved
        · cases resolved
        · cases resolved
          exact ⟨text, parsed⟩

/-- Every script that an inscription asks for is an address script, except in a send. -/
theorem infoOf_scripts {model : UserOperation} {toParam : Option ScriptPublicKey}
    {royaltyTo sender : ScriptPublicKey} {tick : Tick} {info : OperationInfo}
    (success : analyzer.infoOf crates sigtx model toParam royaltyTo sender tick = .ok info)
    (toAddress : ∀ spk, toParam = some spk → spk.IsAddress) (royaltyAddress : royaltyTo.IsAddress)
    (senderAddress : sender.IsAddress) (noSend : ∀ send, info ≠ .send send) :
    ∀ spk ∈ info.scripts, spk.IsAddress := by
  have recipient : (toParam.getD sender).IsAddress := by
    cases same : toParam with
    | none => exact senderAddress
    | some spk => exact toAddress spk same
  have kind := op_infoOf success
  rw [infoOf, kind] at success
  cases info with
  | deploy deployment =>
      obtain ⟨_, _, deployed⟩ := bind_eq_ok.1 success
      obtain ⟨metadata, _, deployed⟩ := bind_eq_ok.1 deployed
      split at deployed
      · cases deployed
      obtain ⟨max, _, deployed⟩ := bind_eq_ok.1 deployed
      simp only at deployed
      split_ifs at deployed
      obtain ⟨royalty, charged, built⟩ := bind_eq_ok.1 deployed
      cases built
      intro spk member
      rcases List.mem_cons.1 member with rfl | beneficiary
      · exact recipient
      · unfold detectRoyalty at charged
        split at charged
        · cases charged
          cases beneficiary
        · split_ifs at charged
          cases charged
          rw [Option.map_some, Option.toList_some, List.mem_singleton] at beneficiary
          rw [beneficiary]
          exact royaltyAddress
  | mint mint =>
      simp only [OperationInfo.op, detectMint] at success
      split at success
      · cases success
      · cases success
        simpa [OperationInfo.scripts] using recipient
  | transfer transfer =>
      obtain ⟨tokenId, _, built⟩ := bind_eq_ok.1 success
      obtain ⟨toSpk, given, built⟩ := bind_eq_ok.1 built
      cases built
      simpa [OperationInfo.scripts] using toAddress toSpk (okOr_eq_ok.1 given)
  | discount discount =>
      obtain ⟨fee, _, built⟩ := bind_eq_ok.1 success
      obtain ⟨toSpk, given, built⟩ := bind_eq_ok.1 built
      cases built
      simpa [OperationInfo.scripts] using toAddress toSpk (okOr_eq_ok.1 given)
  | list listing => simp [OperationInfo.scripts]
  | send send => exact absurd rfl (noSend send)

/-- The scripts of a detected operation are address scripts, except for the buyer of a send. -/
theorem detected_scripts (pays : crates.PaysToAddresses) {operation : Operation}
    (detected : analyzer.detectKrc721 crates sigtx = .ok (some operation)) :
    operation.common.sender.IsAddress ∧
      ((∀ send, operation.info ≠ .send send) → ∀ spk ∈ operation.info.scripts, spk.IsAddress) := by
  obtain ⟨_, _, model, resolvedTo, resolvedRoyaltyTo, _, resolves, success⟩ :=
    detectKrc721_eq_ok_some detected
  obtain ⟨sent, _, _, asked⟩ := operationOf_eq_ok success
  have sender := detectSender_isAddress sent
  have parsed {fieldName : String} {field : Option String} {resolved : Option Address}
      (same : analyzer.resolveAddress crates fieldName field = .ok resolved) (spk : ScriptPublicKey)
      (paid : resolved.map crates.payToAddressScript = some spk) : spk.IsAddress := by
    obtain ⟨address, rfl, rfl⟩ := Option.map_eq_some_iff.1 paid
    obtain ⟨text, found⟩ := resolveAddress_eq_some same
    exact pays text address found
  refine ⟨sender, infoOf_scripts asked (parsed resolves.toAddress) ?_ sender⟩
  cases royaltyTo : resolvedRoyaltyTo.map crates.payToAddressScript with
  | none => exact sender
  | some spk => exact parsed resolves.royaltyTo spk royaltyTo

end Analyzer

end Krc721
