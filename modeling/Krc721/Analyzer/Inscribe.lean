import Krc721.Analyzer.Reveal

/-! How an inscription is revealed: the signature script that is built from it, and what the
analyzer detects in a transaction with this signature script. -/

set_option autoImplicit false

namespace Krc721

open SymbolStream

/-- `pay_to_script_hash_signature_script` of the script crate in addition. -/
structure RevealCrates extends Crates where
  payToScriptHashSignatureScript : List ℕ → List ℕ → Except TxScriptError (List ℕ)

namespace RevealCrates

variable (crates : RevealCrates)

def redeemScriptHashSignatureScript (header redeemScript pubkey txSignature : List ℕ) :
    Except TxScriptError (List ℕ) := do
  let buildRedeemScript ← crates.redeemPubkey header redeemScript pubkey
  let signatureOp ← crates.addData txSignature []
  crates.payToScriptHashSignatureScript buildRedeemScript signatureOp

/-- The script crate pushes a redeem script of admissible size behind its signature. -/
structure Laws (crates : RevealCrates) : Prop extends crates.ScriptLaws where
  signatureScript : ∀ redeemScript signature, 2 ≤ redeemScript.length →
    redeemScript.length ≤ MAX_SCRIPT_ELEMENT_SIZE →
      crates.payToScriptHashSignatureScript redeemScript signature =
        .ok (signature ++ dataPush redeemScript)

end RevealCrates

/-- A payload, a key and a signature that a signature script can be built of. -/
structure Revealable (payload pubkey signature : List ℕ) : Prop where
  headed : Headed payload
  key : 2 ≤ pubkey.length
  signatureMin : 2 ≤ signature.length
  signatureMax : signature.length ≤ MAX_SCRIPT_ELEMENT_SIZE
  fits : (redeemScriptOf pubkey payload).length ≤ MAX_SCRIPT_ELEMENT_SIZE

section

variable {crates : RevealCrates} {payload pubkey signature : List ℕ}

/-- What is built reveals the redeem script of the payload. -/
theorem Revealable.built (revealable : Revealable payload pubkey signature) (laws : crates.Laws) :
    crates.redeemScriptHashSignatureScript PROTOCOL_KSPR_NAMESPACE payload pubkey signature =
        .ok (dataPush signature ++ dataPush (redeemScriptOf pubkey payload)) ∧
      ∀ {sigtx : ContextTransaction},
        sigtx.signatureScript =
          some (dataPush signature ++ dataPush (redeemScriptOf pubkey payload)) →
        RevealsScript crates.toCrates sigtx (redeemScriptOf pubkey payload) := by
  have payloadMax := length_le_redeemScriptOf pubkey payload
  have payloadMin := revealable.headed.two_le_length
  have pubkeyMax := length_pubkey_le_redeemScriptOf pubkey payload
  have fits := revealable.fits
  have signatureMax := revealable.signatureMax
  have signatureLe := length_dataPush_le signature
  constructor
  · have redeem := laws.toScriptLaws.redeemPubkey_eq revealable.key (pubkeyMax.trans fits)
      payloadMin (payloadMax.trans fits)
    have signatureOp := laws.addData signature [] revealable.signatureMin signatureMax (by
      unfold MAX_SCRIPT_ELEMENT_SIZE at signatureMax
      unfold MAX_SCRIPTS_SIZE
      simp only [List.nil_append]
      omega)
    rw [List.nil_append] at signatureOp
    simp only [RevealCrates.redeemScriptHashSignatureScript, redeem, signatureOp, bind, Except.bind]
    exact laws.signatureScript _ _ (payloadMin.trans payloadMax) fits
  · intro sigtx signed
    obtain ⟨opcode, reads, _⟩ :=
      laws.readsData signature revealable.signatureMin signatureMax
    refine ⟨_, _, [], reads, ?_⟩
    rw [signed, List.append_nil]

/-- The signature script of the transaction is the one that is built from the payload. -/
def Inscribes (crates : RevealCrates) (payload pubkey signature : List ℕ)
    (sigtx : ContextTransaction) : Prop :=
  ∃ script, crates.redeemScriptHashSignatureScript PROTOCOL_KSPR_NAMESPACE payload pubkey
    signature = .ok script ∧ sigtx.signatureScript = some script

theorem Inscribes.reveals {sigtx : ContextTransaction}
    (inscribes : Inscribes crates payload pubkey signature sigtx) (laws : crates.Laws)
    (revealable : Revealable payload pubkey signature) :
    RevealsScript crates.toCrates sigtx (redeemScriptOf pubkey payload) := by
  obtain ⟨script, success, signed⟩ := inscribes
  obtain ⟨built, reveals⟩ := revealable.built laws
  rw [success] at built
  cases built
  exact reveals signed

namespace Analyzer

variable {analyzer : Analyzer} {sigtx : ContextTransaction} {model : UserOperation} {tick : Tick}
  {recipient beneficiary : Option Address} {info : OperationInfo}

/-- What is revealed under a Schnorr key is detected as the operation that it asks for, in the name
of the key. -/
theorem detectKrc721_revealed (laws : crates.Laws) (headed : Headed payload)
    (fits : (redeemScriptOf pubkey payload).length ≤ MAX_SCRIPT_ELEMENT_SIZE)
    (schnorr : pubkey.length = 32)
    (revealed : RevealsScript crates.toCrates sigtx (redeemScriptOf pubkey payload))
    (inscription : crates.parseUserOperation payload = .ok model)
    (resolves : Resolves crates.toCrates analyzer model recipient beneficiary)
    (named : Tick.fromStr crates.unicode model.tick.asStr = .ok tick)
    (asked : analyzer.infoOf crates.toCrates sigtx model (recipient.map crates.payToAddressScript)
      ((beneficiary.map crates.payToAddressScript).getD (.ofPubKey pubkey)) (.ofPubKey pubkey)
      tick = .ok info) :
    analyzer.detectKrc721 crates.toCrates sigtx = .ok (some ⟨⟨tick, sigtx.tx.id, sigtx.blockTime,
      .ofPubKey pubkey, sigtx.fee, sigtx.acceptingBlockDaaScore⟩, info⟩) := by
  obtain ⟨envelope, first, second, content, reveals⟩ :=
    revealed.exists_envelope_of_fits laws.toScriptLaws (.inl schnorr) headed fits
  have sender : analyzer.detectSender sigtx envelope.first envelope.second =
      .ok (.ofPubKey pubkey) := detectSender_eq_ofPubKey first.data_eq second schnorr
  have operation : analyzer.operationOf crates.toCrates sigtx envelope.first envelope.second model
      recipient beneficiary = .ok ⟨⟨tick, sigtx.tx.id, sigtx.blockTime, .ofPubKey pubkey,
        sigtx.fee, sigtx.acceptingBlockDaaScore⟩, info⟩ :=
    bind_eq_ok.2 ⟨_, sender, bind_eq_ok.2 ⟨tick, orError_eq_ok.2 named,
      bind_eq_ok.2 ⟨info, asked, rfl⟩⟩⟩
  rw [detectKrc721_of_reveals ⟨reveals, content ▸ inscription⟩ resolves, operation]
  rfl

end Analyzer

end

end Krc721
