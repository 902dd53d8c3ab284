import Krc721.Processor.ForkedRows

/-! A rejected operation is logged and has no other effect. The only operation that writes
before it can be refused is a deployment, and no mint of a new tick is refused. -/

set_option autoImplicit false

namespace Krc721

open OrderedStore

/-- The premint loop of a deployment that the tick has no mints for is not refused, and does
not fault. -/
theorem premintLoop_accepted {common : OperationCommon} {info : DeployInfo} {score : ℕ}
    (count : ℕ) (db : Db)
    (found : db.collectionRegistry.get common.tick = some ⟨score, info, common⟩)
    (le : info.premint ≤ info.max) (fits : info.max ≤ u64Max)
    (issued : 0 < count → ∃ ids, Issued db.mintHistory common.tick ids ∧
      ids.length + count ≤ info.premint) :
    ∃ db', premintLoop common info score count db = .ok (db', none) := by
  induction count generalizing db with
  | zero => exact ⟨db, rfl⟩
  | succ count ih =>
      obtain ⟨ids, issued, below⟩ := issued (Nat.succ_pos count)
      have minted := processMint_premint 0 score ⟨0, info.deployer, none⟩ found le issued
        (by simp only; omega)
      simp only [premintLoop, minted]
      refine ih _ found fun more => ⟨ids ++ [ids.length + 1], issued.append (by omega), ?_⟩
      rw [List.length_append, List.length_singleton]
      omega

/-- A deployment is refused only because its tick is taken, if a tick without a collection has no
mints. -/
theorem processDeployment_refused {db db' : Db} {txScore : ℕ} {common : OperationCommon}
    {info : DeployInfo} {error : CtxValidationError}
    (unminted : ∀ {tick}, db.collectionRegistry.get tick = none → Issued db.mintHistory tick [])
    (le : info.premint ≤ info.max) (fits : info.max ≤ u64Max)
    (refused : processDeployment db txScore common info = .ok (db', some error)) :
    db' = db ∧ (db.collectionRegistry.get common.tick).isSome := by
  cases found : db.collectionRegistry.get common.tick with
  | some entry =>
      simp only [processDeployment, found] at refused
      split at refused
      · cases refused
      · cases refused
        exact ⟨rfl, rfl⟩
  | none =>
      obtain ⟨final, accepted⟩ : ∃ final, premintLoop common info txScore info.premint { db with
            collectionRegistry := db.collectionRegistry.insert common.tick ⟨txScore, info, common⟩
            collectionDeployments :=
              db.collectionDeployments.insert ⟨txScore, common.tick⟩ ⟨info, common⟩ } =
          .ok (final, none) :=
        premintLoop_accepted _ _ (Partition.get_insert_self _ _ _) le fits
          fun _ => ⟨[], unminted found, by simp⟩
      simp only [processDeployment, found, accepted] at refused
      cases refused

/-! The operations that validate before they write. -/

section Refused

variable {db : Db} {txScore : ℕ} {common : OperationCommon} {error : CtxValidationError}

theorem processTransfer_refused {info : TransferInfo}
    (refused : (processTransfer db txScore common info).2 = some error) :
    (processTransfer db txScore common info).1 = db := by
  rcases processTransfer_cases db txScore common info with
    ⟨_, outcome⟩ | ⟨_, _, _, _, outcome⟩
  · rw [outcome]
  · rw [outcome] at refused
    cases refused

theorem processDiscount_refused {info : DiscountInfo}
    (refused : (processDiscount db txScore common info).2 = some error) :
    (processDiscount db txScore common info).1 = db := by
  rcases processDiscount_cases db txScore common info with
    ⟨_, outcome⟩ | ⟨_, _, _, _, outcome⟩
  · rw [outcome]
  · rw [outcome] at refused
    cases refused

theorem processList_refused {kaspa : Kaspa} {info : ListingInfo}
    (refused : (processList kaspa db txScore common info).2 = some error) :
    (processList kaspa db txScore common info).1 = db := by
  rcases processList_cases db txScore common kaspa info with
    ⟨_, outcome⟩ | ⟨_, _, _, _, _, _, _, outcome⟩
  · rw [outcome]
  · rw [outcome] at refused
    cases refused

theorem processSend_refused {info : SendInfo}
    (refused : (processSend db txScore common info).2 = some error) :
    (processSend db txScore common info).1 = db := by
  rcases processSend_cases db txScore common info with
    ⟨_, outcome⟩ | ⟨_, _, _, ⟨_, _, outcome⟩ | ⟨_, outcome⟩⟩
  · rw [outcome]
  · rw [outcome] at refused
    cases refused
  · rw [outcome] at refused
    cases refused

end Refused

/-- A refused operation leaves the database that it was validated against. -/
theorem applyOperation_refused {kaspa : Kaspa} {db db' : Db} {context : ContextOperation}
    {checked : CheckedOperation} {error : CtxValidationError}
    (unminted : ∀ {tick}, db.collectionRegistry.get tick = none → Issued db.mintHistory tick [])
    (promised : ∀ info, context.operation.info = .deploy info →
      info.premint ≤ info.max ∧ info.max ≤ u64Max)
    (success : applyOperation kaspa db context = .ok (db', checked))
    (refused : checked.error = some error) :
    db' = db ∧ checked = ⟨context.operation, some error⟩ ∧
      ∀ info, context.operation.info = .deploy info →
        (db.collectionRegistry.get context.operation.common.tick).isSome := by
  unfold applyOperation at success
  cases kind : context.operation.info with
  | deploy info =>
      simp only [kind] at success
      split at success
      · cases success
      · rename_i deployment
        cases success
        simp only at refused
        subst refused
        obtain ⟨le, fits⟩ := promised info kind
        obtain ⟨same, taken⟩ := processDeployment_refused unminted le fits deployment
        exact ⟨same, rfl, fun _ _ => taken⟩
  | mint info =>
      simp only [kind] at success
      split at success
      · cases success
      · rename_i minted
        cases success
        cases refused
        cases processMint_writes minted with
        | inl unchanged =>
            obtain ⟨_, _, same⟩ := unchanged
            exact ⟨same, rfl, fun _ deploy => nomatch deploy⟩
        | inr written =>
            obtain ⟨_, _, _, _, accepted, _⟩ := written
            cases accepted
      · cases success
        cases refused
  | transfer info =>
      simp only [kind] at success
      cases success
      exact ⟨processTransfer_refused refused, congrArg _ refused, fun _ deploy => nomatch deploy⟩
  | discount info =>
      simp only [kind] at success
      cases success
      exact ⟨processDiscount_refused refused, congrArg _ refused, fun _ deploy => nomatch deploy⟩
  | list info =>
      simp only [kind] at success
      cases success
      exact ⟨processList_refused refused, congrArg _ refused, fun _ deploy => nomatch deploy⟩
  | send info =>
      simp only [kind] at success
      cases success
      exact ⟨processSend_refused refused, congrArg _ refused, fun _ deploy => nomatch deploy⟩

/-- An operation that is rejected, on a reachable database or inside the mergeset of a new
block, changes the log and nothing else, and a deployment is rejected only before it writes. -/
theorem Processing.rejected {kaspa : Kaspa} {db db' : Db} {context : ContextOperation}
    {checked : CheckedOperation} {error : CtxValidationError}
    (processing : UnforkedProcessing kaspa db ∨ FittingProcessing kaspa db)
    (promised : ∀ info, context.operation.info = .deploy info →
      info.premint ≤ info.max ∧ info.max ≤ u64Max)
    (success : applyOperation kaspa db context = .ok (db', checked))
    (refused : checked.error = some error) (diff : StatsDiffs) :
    db' = db ∧
    processNftOperation kaspa db diff context = .ok ({ db with
      operationHistory := db.operationHistory.insert context.txScore
        ⟨context.operation, some error⟩
      txIdToOpscore := db.txIdToOpscore.insert context.operation.common.txId
        context.txScore }, diff) ∧
    ∀ info, context.operation.info = .deploy info →
      (db.collectionRegistry.get context.operation.common.tick).isSome := by
  obtain ⟨same, logged, taken⟩ :=
    applyOperation_refused (Processing.unminted processing) promised success refused
  refine ⟨same, ?_, taken⟩
  subst same logged
  simp only [processNftOperation, success]
  rfl

theorem Processing.rejected_sale : ∃ db' checked error,
    applyOperation Sample.kaspa Sample.sold Sample.sale = .ok (db', checked) ∧
      checked.error = some error ∧ db' = Sample.sold ∧
      processNftOperation Sample.kaspa Sample.sold 0 Sample.sale = .ok ({ Sample.sold with
        operationHistory := Sample.sold.operationHistory.insert Sample.sale.txScore
          ⟨Sample.sale.operation, some error⟩
        txIdToOpscore := Sample.sold.txIdToOpscore.insert Sample.sale.operation.common.txId
          Sample.sale.txScore }, 0) := by
  obtain ⟨db', checked, error, success, refused⟩ : ∃ db' checked error,
      applyOperation Sample.kaspa Sample.sold Sample.sale = .ok (db', checked) ∧
        checked.error = some error := ⟨_, _, _, rfl, rfl⟩
  have promised : ∀ info, Sample.sale.operation.info = .deploy info →
      info.premint ≤ info.max ∧ info.max ≤ u64Max := by
    intro info deploy
    cases deploy
  obtain ⟨same, logged, _⟩ :=
    Processing.rejected (.inl (.committed Sample.sold_reachable)) promised success refused 0
  exact ⟨db', checked, error, success, refused, same, logged⟩

end Krc721
