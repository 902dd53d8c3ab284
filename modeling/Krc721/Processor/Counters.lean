import Krc721.Processor.Chain

/-! The counters. Saturating sums do not depend on how they are grouped, and nothing that is
processed reads the counters. -/

set_option autoImplicit false

namespace Krc721

open OrderedStore

/-! Saturating sums. -/

/-- Every counter is a `u64`. -/
structure Stats.Fits (stats : Stats) : Prop where
  deployments : stats.deployments ≤ u64Max
  mints : stats.mints ≤ u64Max
  transfers : stats.transfers ≤ u64Max
  royaltyFees : stats.royaltyFees ≤ u64Max
  securityFees : stats.securityFees ≤ u64Max
  listings : stats.listings ≤ u64Max
  sends : stats.sends ≤ u64Max

theorem saturatingAdd_assoc (first second third : ℕ) :
    saturatingAdd (saturatingAdd first second) third =
      saturatingAdd first (saturatingAdd second third) := by
  unfold saturatingAdd
  omega

namespace Stats

theorem add_assoc (first second third : Stats) :
    first + second + third = first + (second + third) := by
  show add (add first second) third = add first (add second third)
  simp only [add, saturatingAdd_assoc]

theorem Fits.add_zero {stats : Stats} (fits : stats.Fits) : stats + 0 = stats := by
  obtain ⟨deployments, mints, transfers, royaltyFees, securityFees, listings, sends⟩ := fits
  show add stats zero = stats
  simp only [add, zero, saturatingAdd, Nat.add_zero, min_eq_left, *]

theorem Fits.zero : (0 : Stats).Fits :=
  ⟨Nat.zero_le _, Nat.zero_le _, Nat.zero_le _, Nat.zero_le _, Nat.zero_le _, Nat.zero_le _,
    Nat.zero_le _⟩

theorem fits_add (left right : Stats) : (left + right).Fits :=
  ⟨Nat.min_le_right _ _, Nat.min_le_right _ _, Nat.min_le_right _ _, Nat.min_le_right _ _,
    Nat.min_le_right _ _, Nat.min_le_right _ _, Nat.min_le_right _ _⟩

/-- The sum of a list of diffs, one after the other. -/
def total (stats : Stats) (diffs : List StatsDiffs) : Stats := diffs.foldl (· + ·) stats

theorem total_append (stats : Stats) (left right : List StatsDiffs) :
    stats.total (left ++ right) = (stats.total left).total right :=
  List.foldl_append

theorem Fits.total {stats : Stats} (fits : stats.Fits) (diffs : List StatsDiffs) :
    (stats.total diffs).Fits := by
  induction diffs generalizing stats with
  | nil => exact fits
  | cons diff diffs ih => exact ih (fits_add stats diff)

theorem add_total (left right : Stats) (diffs : List StatsDiffs) :
    left + right.total diffs = (left + right).total diffs := by
  induction diffs generalizing right with
  | nil => rfl
  | cons diff diffs ih =>
      have step := ih (right + diff)
      rw [← add_assoc] at step
      exact step

end Stats

/-! The counters are not read. -/

abbrev Db.withStats (db : Db) (stats : Option Stats) : Db := { db with stats }

/-- The result of a step with other counters in the database. -/
def withStats {Outcome : Type} (stats : Option Stats) (result : Except Fault (Db × Outcome)) :
    Except Fault (Db × Outcome) :=
  result.map fun (db, outcome) => (db.withStats stats, outcome)

section WithStats

variable (stats : Option Stats) (db : Db)

theorem processMint_withStats (entropy score : ℕ) (common : OperationCommon) (info : MintInfo)
    (isDeployment : Bool) :
    processMint (db.withStats stats) entropy score common info isDeployment =
      withStats stats (processMint db entropy score common info isDeployment) := by
  unfold processMint
  simp only [Db.withStats]
  cases db.collectionRegistry.get common.tick with
  | none => rfl
  | some entry =>
      simp only
      split
      · rfl
      · split
        · rfl
        · generalize (decide (0 < entry.info.info.premint) &&
            decide ((db.lastMintedTokenSeqNo common.tick).getD 0 < entry.info.info.premint)) =
              shouldPremint
          generalize (if shouldPremint then none else royaltyViolation db.vip common.tick
            info.toSpk entry.info.info.royalty info.royalty) = royalties
          cases royalties with
          | some error => rfl
          | none =>
              simp only
              split
              · rfl
              · split
                · cases db.generateTokenId common.tick entropy entry.info.info.max
                    entry.info.info.premint with
                  | error fault => rfl
                  | ok drawn => rfl
                · rfl

theorem premintLoop_withStats (common : OperationCommon) (info : DeployInfo) (score : ℕ)
    (count : ℕ) :
    premintLoop common info score count (db.withStats stats) =
      withStats stats (premintLoop common info score count db) := by
  induction count generalizing db with
  | zero => rfl
  | succ count ih =>
      simp only [premintLoop, processMint_withStats]
      cases processMint db 0 score common ⟨0, info.deployer, none⟩ true with
      | error fault => rfl
      | ok result =>
          obtain ⟨between, outcome⟩ := result
          cases outcome with
          | error error => rfl
          | ok info => exact ih between

theorem processDeployment_withStats (score : ℕ) (common : OperationCommon) (info : DeployInfo)  :
    processDeployment (db.withStats stats) score common info =
      withStats stats (processDeployment db score common info) := by
  unfold processDeployment
  simp only [Db.withStats]
  split
  · split <;> rfl
  · exact premintLoop_withStats stats { db with
      collectionRegistry := db.collectionRegistry.insert common.tick ⟨score, info, common⟩
      collectionDeployments :=
        db.collectionDeployments.insert ⟨score, common.tick⟩ ⟨info, common⟩ }
      common info score info.premint

theorem applyOperation_withStats (kaspa : Kaspa) (context : ContextOperation) :
    applyOperation kaspa (db.withStats stats) context =
      withStats stats (applyOperation kaspa db context) := by
  unfold applyOperation
  cases kind : context.operation.info with
  | deploy info =>
      simp only [processDeployment_withStats]
      cases processDeployment db context.txScore context.operation.common info with
      | error fault => rfl
      | ok result => rfl
  | mint info =>
      simp only [processMint_withStats]
      cases processMint db context.mergesetEntropy context.txScore context.operation.common info
        false with
      | error fault => rfl
      | ok result =>
          obtain ⟨between, outcome⟩ := result
          cases outcome with
          | error error => rfl
          | ok info => rfl
  | transfer info =>
      simp only [processTransfer, Db.withStats]
      split
      · rfl
      · split
        · rfl
        · split <;> rfl
  | discount info =>
      simp only [processDiscount, Db.withStats]
      split
      · rfl
      · split
        · rfl
        · split <;> rfl
  | list info =>
      simp only [processList, Db.withStats]
      split
      · rfl
      · split
        · rfl
        · split
          · rfl
          · split
            · rfl
            · split <;> rfl
  | send info =>
      simp only [processSend, Db.withStats]
      split
      · rfl
      · split
        · rfl
        · split <;> rfl

theorem processNftOperation_withStats (kaspa : Kaspa) (diff : StatsDiffs)
    (context : ContextOperation) :
    processNftOperation kaspa (db.withStats stats) diff context =
      withStats stats (processNftOperation kaspa db diff context) := by
  simp only [processNftOperation, applyOperation_withStats]
  cases applyOperation kaspa db context with
  | error fault => rfl
  | ok result => rfl

theorem processNftOperations_withStats (kaspa : Kaspa) (diff : StatsDiffs)
    (contexts : List ContextOperation) :
    processNftOperations kaspa (db.withStats stats) diff contexts =
      withStats stats (processNftOperations kaspa db diff contexts) := by
  induction contexts generalizing db diff with
  | nil => rfl
  | cons context contexts ih =>
      simp only [processNftOperations, processNftOperation_withStats]
      cases processNftOperation kaspa db diff context with
      | error fault => rfl
      | ok result => exact ih result.1 result.2

theorem processMergeset_withStats (kaspa : Kaspa) (lastAcceptedBlueScore : ℕ)
    (diff : StatsDiffs) (mergeset : Mergeset) :
    processMergeset kaspa lastAcceptedBlueScore (db.withStats stats) diff mergeset =
      withStats stats (processMergeset kaspa lastAcceptedBlueScore db diff mergeset) := by
  unfold processMergeset
  split
  · rfl
  · simp only
    split
    · rfl
    · have step := processNftOperations_withStats stats
        { db with toChainStore := db.toChainStore.accept mergeset } kaspa 0
        (scoredOperations kaspa { db with
          toChainStore := db.toChainStore.accept mergeset } mergeset)
      have same : scoredOperations kaspa
          { db.withStats stats with toChainStore := db.toChainStore.accept mergeset } mergeset =
        scoredOperations kaspa { db with toChainStore := db.toChainStore.accept mergeset }
          mergeset := rfl
      dsimp only at step same
      rw [same, step]
      cases processNftOperations kaspa { db with
          toChainStore := db.toChainStore.accept mergeset } 0
        (scoredOperations kaspa { db with
          toChainStore := db.toChainStore.accept mergeset } mergeset) with
      | error fault => rfl
      | ok result => rfl

theorem processMergesets_withStats (kaspa : Kaspa) (lastAcceptedBlueScore : ℕ)
    (diff : StatsDiffs) (mergesets : List Mergeset) :
    processMergesets kaspa lastAcceptedBlueScore (db.withStats stats) diff mergesets =
      withStats stats (processMergesets kaspa lastAcceptedBlueScore db diff mergesets) := by
  induction mergesets generalizing db diff with
  | nil => rfl
  | cons mergeset mergesets ih =>
      simp only [processMergesets, processMergeset_withStats]
      cases processMergeset kaspa lastAcceptedBlueScore db diff mergeset with
      | error fault => rfl
      | ok result => exact ih result.1 result.2

end WithStats

end Krc721
