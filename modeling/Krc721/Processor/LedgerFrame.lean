import Krc721.Processor.Chain

/-! What an operation does to the ledger is read off the ledger: two databases with one ledger
accept the same operations and have one ledger again. -/

set_option autoImplicit false

namespace Krc721

open OrderedStore

/-- Two results with the same fault, or with one ledger and the same value. -/
inductive Alike {Value : Type} :
    Except Fault (Db × Value) → Except Fault (Db × Value) → Prop where
  | fault (fault : Fault) : Alike (.error fault) (.error fault)
  | done {left right : Db} (value : Value) (same : left.toLedger = right.toLedger) :
      Alike (.ok (left, value)) (.ok (right, value))

theorem Alike.ledger {Value : Type} {left right : Db} {value value' : Value}
    (alike : Alike (.ok (left, value)) (.ok (right, value'))) : left.toLedger = right.toLedger := by
  cases alike with
  | done _ same => exact same

section

variable {kaspa : Kaspa} {db other : Db}

theorem processMint_alike {entropy score : ℕ} {common : OperationCommon} {info : MintInfo}
    {isDeployment : Bool} (same : db.toLedger = other.toLedger) :
    Alike (processMint db entropy score common info isDeployment)
      (processMint other entropy score common info isDeployment) := by
  cases db
  cases other
  cases same
  unfold processMint
  dsimp only
  split
  · exact .done _ rfl
  · split
    · exact .done _ rfl
    · split
      · exact .done _ rfl
      · split
        · exact .done _ rfl
        · split
          · exact .done _ rfl
          · split
            · split
              · exact .fault _
              · exact .done _ rfl
            · exact .done _ rfl

theorem premintLoop_alike {common : OperationCommon} {info : DeployInfo} {score count : ℕ}
    (same : db.toLedger = other.toLedger) :
    Alike (premintLoop common info score count db) (premintLoop common info score count other) := by
  induction count generalizing db other with
  | zero => exact .done none same
  | succ count ih =>
      have step : Alike (processMint db 0 score common ⟨0, info.deployer, none⟩ true)
        (processMint other 0 score common ⟨0, info.deployer, none⟩ true) := processMint_alike same
      unfold premintLoop
      generalize processMint db 0 score common ⟨0, info.deployer, none⟩ true = left at step ⊢
      generalize processMint other 0 score common ⟨0, info.deployer, none⟩ true = right at step ⊢
      cases step with
      | fault fault => exact .fault fault
      | done outcome ledger =>
          cases outcome with
          | error error => exact .done (some error) ledger
          | ok minted => exact ih ledger

theorem processDeployment_alike {score : ℕ} {common : OperationCommon} {info : DeployInfo}
    (same : db.toLedger = other.toLedger) :
    Alike (processDeployment db score common info) (processDeployment other score common info) := by
  cases db
  cases other
  cases same
  unfold processDeployment
  dsimp only
  split
  · split
    · exact .fault _
    · exact .done _ rfl
  · apply premintLoop_alike
    rfl

theorem processTransfer_alike {score : ℕ} {common : OperationCommon} {info : TransferInfo}
    (same : db.toLedger = other.toLedger) :
    Alike (.ok (processTransfer db score common info))
      (.ok (processTransfer other score common info)) := by
  cases db
  cases other
  cases same
  unfold processTransfer
  dsimp only
  repeat' split
  all_goals exact .done _ rfl

theorem processDiscount_alike {score : ℕ} {common : OperationCommon} {info : DiscountInfo}
    (same : db.toLedger = other.toLedger) :
    Alike (.ok (processDiscount db score common info))
      (.ok (processDiscount other score common info)) := by
  cases db
  cases other
  cases same
  unfold processDiscount
  dsimp only
  repeat' split
  all_goals exact .done _ rfl

theorem processList_alike {score : ℕ} {common : OperationCommon} {info : ListingInfo}
    (same : db.toLedger = other.toLedger) :
    Alike (.ok (processList kaspa db score common info))
      (.ok (processList kaspa other score common info)) := by
  cases db
  cases other
  cases same
  unfold processList
  dsimp only
  repeat' split
  all_goals exact .done _ rfl

theorem processSend_alike {score : ℕ} {common : OperationCommon} {info : SendInfo}
    (same : db.toLedger = other.toLedger) :
    Alike (.ok (processSend db score common info)) (.ok (processSend other score common info)) := by
  cases db
  cases other
  cases same
  unfold processSend
  dsimp only
  split
  · exact .done _ rfl
  · split
    · exact .done _ rfl
    · cases info.buyer <;> exact .done _ rfl

/-- An operation that cannot fault is logged with its outcome. -/
theorem Alike.outcome {left right : Db × Option CtxValidationError} {operation : Operation}
    (alike : Alike (.ok left) (.ok right)) :
    Alike (.ok (left.1, ⟨operation, left.2⟩) : Except Fault (Db × CheckedOperation))
      (.ok (right.1, ⟨operation, right.2⟩)) := by
  cases alike with
  | done error ledger => exact .done _ ledger

theorem applyOperation_alike {context : ContextOperation} (same : db.toLedger = other.toLedger) :
    Alike (applyOperation kaspa db context) (applyOperation kaspa other context) := by
  obtain ⟨txScore, ⟨common, info⟩, entropy⟩ := context
  cases info with
  | deploy info =>
      have step : Alike (processDeployment db txScore common info)
        (processDeployment other txScore common info) := processDeployment_alike same
      unfold applyOperation
      dsimp only
      generalize processDeployment db txScore common info = left at step ⊢
      generalize processDeployment other txScore common info = right at step ⊢
      cases step with
      | fault fault => exact .fault fault
      | done error ledger => exact .done _ ledger
  | mint info =>
      have step : Alike (processMint db entropy txScore common info false)
        (processMint other entropy txScore common info false) := processMint_alike same
      unfold applyOperation
      dsimp only
      generalize processMint db entropy txScore common info false = left at step ⊢
      generalize processMint other entropy txScore common info false = right at step ⊢
      cases step with
      | fault fault => exact .fault fault
      | done outcome ledger => cases outcome <;> exact .done _ ledger
  | transfer info =>
      exact Alike.outcome (processTransfer_alike same)
  | discount info => exact Alike.outcome (processDiscount_alike same)
  | list info => exact Alike.outcome (processList_alike same)
  | send info => exact Alike.outcome (processSend_alike same)

theorem processNftOperations_alike {diff : StatsDiffs} {contexts : List ContextOperation}
    (same : db.toLedger = other.toLedger) :
    Alike (processNftOperations kaspa db diff contexts)
      (processNftOperations kaspa other diff contexts) := by
  induction contexts generalizing db other diff with
  | nil => exact .done diff same
  | cons context contexts ih =>
      have step : Alike (applyOperation kaspa db context) (applyOperation kaspa other context) :=
        applyOperation_alike same
      unfold processNftOperations processNftOperation
      generalize applyOperation kaspa db context = left at step ⊢
      generalize applyOperation kaspa other context = right at step ⊢
      cases step with
      | fault fault => exact .fault fault
      | @done left right checked ledger =>
          apply ih
          exact congrArg (fun ledger : Ledger => { ledger with
            operationHistory := ledger.operationHistory.insert context.txScore checked
            txIdToOpscore := ledger.txIdToOpscore.insert checked.operation.common.txId
              context.txScore }) ledger

/-- The rows of a mergeset depend on the log only. -/
theorem scoredOperations_ledger (mergeset : Mergeset) (same : db.toLedger = other.toLedger) :
    scoredOperations kaspa db mergeset = scoredOperations kaspa other mergeset := by
  rw [scoredOperations, scoredOperations,
    congrArg (fun ledger : Ledger => ledger.txIdToOpscore) same]

end

end Krc721
