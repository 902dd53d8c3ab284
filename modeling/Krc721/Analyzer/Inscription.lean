import Krc721.Analyzer.TickText
import Krc721.Model.Script

/-! What the analyzer reads and returns: a transaction with its context, the inscription a
user wrote, and the errors. -/

set_option autoImplicit false

namespace Krc721

inductive Prefix where
  | mainnet
  | testnet
  | simnet
  | devnet
deriving DecidableEq, Inhabited

inductive Version where
  | pubKey
  | pubKeyEcdsa
  | scriptHash
deriving DecidableEq, Inhabited

structure Address where
  addressPrefix : Prefix
  version : Version
  payload : List ℕ
deriving DecidableEq, Inhabited

inductive AddressError where
  | invalidAddress
  | other (text : String)
deriving DecidableEq, Inhabited

inductive Op where
  | deploy
  | mint
  | transfer
  | discount
  | list
  | send
deriving DecidableEq, Inhabited

inductive Protocol where
  | krc721
deriving DecidableEq, Inhabited

structure UserOperation where
  protocol : Protocol
  op : Op
  tick : Tick
  tokenId : Option ℕ
  metadata : Option Metadata
  max : Option ℕ
  toAddress : Option String
  royaltyTo : Option String
  royaltyFee : Option ℕ
  daaMintStart : Option ℕ
  discountFee : Option ℕ
  premint : Option ℕ
deriving DecidableEq, Inhabited

structure TransactionOutpoint where
  transactionId : TransactionId
  index : ℕ
deriving DecidableEq, Inhabited

structure TransactionInput where
  previousOutpoint : TransactionOutpoint
  signatureScript : List ℕ
deriving DecidableEq, Inhabited

structure TransactionOutput where
  value : ℕ
  scriptPublicKey : ScriptPublicKey
deriving DecidableEq, Inhabited

structure Transaction where
  id : TransactionId
  inputs : List TransactionInput
  outputs : List TransactionOutput
deriving DecidableEq, Inhabited

structure ContextTransaction where
  tx : Transaction
  fee : ℕ
  blockTime : ℕ
  acceptingBlockDaaScore : ℕ
deriving DecidableEq, Inhabited

namespace ContextTransaction

variable (sigtx : ContextTransaction)

def signatureScript : Option (List ℕ) := sigtx.tx.inputs.head?.map (·.signatureScript)

def firstBeneficiary : Option ScriptPublicKey := sigtx.tx.outputs.head?.map (·.scriptPublicKey)

def firstOutputAmt : Option ℕ := sigtx.tx.outputs.head?.map (·.value)

def outputSpk (index : ℕ) : Option ScriptPublicKey :=
  sigtx.tx.outputs[index]?.map (·.scriptPublicKey)

def outputAmt (index : ℕ) : Option ℕ := sigtx.tx.outputs[index]?.map (·.value)

def inputPrevTxid (index : ℕ) : Option TransactionId :=
  sigtx.tx.inputs[index]?.map (·.previousOutpoint.transactionId)

end ContextTransaction

/-- The text of an error of the script parser. -/
structure TxScriptError where
  text : String
deriving DecidableEq, Inhabited

/-- The text and path of an error of the JSON parser. -/
structure SerdeError where
  text : String
deriving DecidableEq, Inhabited

inductive AnalyzerError where
  | txScript (error : TxScriptError)
  | insufficientOpcodeLen
  | emptyOpcodeData
  | missingKrc721Header
  | unsupportedEnvelopeLength
  | serdeWithPath (error : SerdeError)
  | nftInscriptionModelFieldValueParsingError (fieldName error : String)
  | tick (error : TickError)
  | opTransferMissingValue (field : String)
  | opListMissingValue (field : String)
  | opSendMissingValue (field : String)
  | insufficientMintFee (fee : ℕ)
  | insufficientDeployFee (fee : ℕ)
  | opDeployMissingValue (field : String)
  | unknownSenderType
  | invalidRedeemEnvelopeFormat (message : String)
  | restrictedTickDeploy (tick : Tick) (expectedDeployer deployer : ScriptPublicKey)
  | underflowRoyaltyFee
  | overflowRoyaltyFee
  | opDiscountMissingValue (field : String)
  | premintGreaterThanMax (max : ℕ)
  | maxSupplyOverflow
  | restrictedMetadataProtocol (protocols : List String)
  | addressError (error : AddressError)
deriving DecidableEq, Inhabited

/-- How an analysis ends without a result: it returns an error, or it panics. -/
inductive Failure where
  | error (error : AnalyzerError)
  | panicked
deriving DecidableEq, Inhabited

def okOr {Value : Type} (error : AnalyzerError) : Option Value → Except Failure Value
  | some value => .ok value
  | none => .error (.error error)

/-- The conversion of `?`. -/
def orError {Error Value : Type} (wrap : Error → AnalyzerError) :
    Except Error Value → Except Failure Value
  | .ok value => .ok value
  | .error error => .error (.error (wrap error))

section

variable {Error Value : Type} {value : Value}

@[simp] theorem orError_ok (wrap : Error → AnalyzerError) :
    orError wrap (.ok value) = .ok value := rfl

theorem okOr_eq_ok {error : AnalyzerError} {source : Option Value} :
    okOr error source = .ok value ↔ source = some value := by
  cases source <;> simp [okOr]

theorem orError_eq_ok {wrap : Error → AnalyzerError} {source : Except Error Value} :
    orError wrap source = .ok value ↔ source = .ok value := by
  cases source <;> simp [orError]

@[simp] theorem okOr_ne_panicked (error : AnalyzerError) (source : Option Value) :
    okOr error source ≠ .error .panicked := by
  cases source <;> simp [okOr]

@[simp] theorem orError_ne_panicked (wrap : Error → AnalyzerError)
    (source : Except Error Value) : orError wrap source ≠ .error .panicked := by
  cases source <;> simp [orError]

end

end Krc721
