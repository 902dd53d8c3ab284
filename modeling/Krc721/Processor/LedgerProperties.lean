import Krc721.Processor.OperationProperties

/-! The well-formed ledger. Processing an operation with a new score and a new transaction id
never faults, and keeps the ledger well formed. -/

set_option autoImplicit false

namespace Krc721

open OrderedStore

/-- The log and its index agree, and every row is below the bound. -/
structure LogStore.Wf (store : LogStore) (bound : ℕ) : Prop where
  under : store.operationHistory.Under (fun score _ => score) bound
  indexed : ∀ {txId score}, store.txIdToOpscore.get txId = some score ↔
    ∃ checked, store.operationHistory.get score = some checked ∧
      checked.operation.common.txId = txId

/-- The registry and the deployments agree, and every row is below the bound. -/
structure CollectionStore.Wf (store : CollectionStore) (bound : ℕ) : Prop where
  under : store.collectionRegistry.Under (fun _ entry => entry.score) bound
  deployments : ∀ {score tick info},
    store.collectionDeployments.get ⟨score, tick⟩ = some info ↔
      store.collectionRegistry.get tick = some ⟨score, info⟩

def VipKey.rowScore (key : VipKey) (_ : Unit) : ℕ := u64Max - key.reversedScore

/-- The log holds the accepted list operation a listing was made from. -/
structure Backed (log : LogStore) (token : OwnershipKey) (listing : ListingValue) : Prop where
  indexed : log.txIdToOpscore.get listing.listingTxId = some listing.opScore
  logged : ∃ common info,
    log.operationHistory.get listing.opScore = some ⟨⟨common, .list info⟩, none⟩ ∧
      common.tick = token.tick ∧ info.tokenId = token.tokenId ∧
      common.sender = listing.seller ∧ info.utxoAddress = listing.utxoAddress ∧
      info.redeemScript = listing.redeemScript

/-- The partitions of a ledger agree, and every row is below the bound. -/
structure Ledger.Wf (ledger : Ledger) (bound : ℕ) : Prop where
  bounded : bound ≤ u64Max + 1
  log : ledger.toLogStore.Wf bound
  collections : ledger.toCollectionStore.Wf bound
  owned : ledger.toOwnershipStore.Wf bound
  deployed : ∀ {tick entry}, ledger.collectionRegistry.get tick = some entry →
    entry.info.info.Sound ∧ ∃ ids, Supply ledger.toOwnershipStore ledger.toRangeStore tick
      entry.info.info.max entry.info.info.premint ids
  undeployed : ∀ {tick}, ledger.collectionRegistry.get tick = none →
    ∀ max premint, Supply ledger.toOwnershipStore ledger.toRangeStore tick max premint []
  vip : ledger.vip.Under VipKey.rowScore bound
  listed : ∀ {token listing}, ledger.listings.get token = some listing →
    Backed ledger.toLogStore token listing ∧
      ∃ modTxScore, ledger.currentOwnership.get token = some ⟨listing.seller, modTxScore⟩
  indexed : ∀ token, ledger.listingsByTick.get ⟨token.tick, token.tokenId⟩ =
    (ledger.listings.get token).map fun _ => ()
  settled : ∀ {score common info},
    ledger.operationHistory.get score = some ⟨⟨common, .send info⟩, none⟩ →
      ∃ listScore, ledger.txIdToOpscore.get info.listingUtxoTxid = some listScore ∧
        listScore < score

theorem Ledger.Wf.mono {ledger : Ledger} {bound higher : ℕ} (wf : ledger.Wf bound)
    (le : bound ≤ higher) (bounded : higher ≤ u64Max + 1) : ledger.Wf higher where
  bounded := bounded
  log := ⟨wf.log.under.mono le, wf.log.indexed⟩
  collections := ⟨wf.collections.under.mono le, wf.collections.deployments⟩
  owned := wf.owned.mono le bounded
  deployed := wf.deployed
  undeployed := wf.undeployed
  vip := wf.vip.mono le
  listed := wf.listed
  indexed := wf.indexed
  settled := wf.settled

/-! What one operation does to the database. -/

/-- The operations of the protocol as the processor settles them. -/
inductive Applied (kaspa : Kaspa) (db : Db) (context : ContextOperation) :
    Db → CheckedOperation → Prop where
  | rejected (error : CtxValidationError) :
      Applied kaspa db context db ⟨context.operation, some error⟩
  | deployed (info : DeployInfo) (kind : context.operation.info = .deploy info)
      (free : db.collectionRegistry.get context.operation.common.tick = none) :
      Applied kaspa db context
        { db with
          collectionRegistry := db.collectionRegistry.insert context.operation.common.tick
            ⟨context.txScore, info, context.operation.common⟩
          collectionDeployments := db.collectionDeployments.insert
            ⟨context.txScore, context.operation.common.tick⟩ ⟨info, context.operation.common⟩
          toOwnershipStore := db.premints context.operation.common.tick context.txScore
            info.deployer 0 info.premint }
        ⟨context.operation, none⟩
  | minted (info : MintInfo) (entry : ScoredDeployInfoWithCommon) (ids : List ℕ)
      (tokenId : ℕ) (ranges : RangeStore) (kind : context.operation.info = .mint info)
      (found : db.collectionRegistry.get context.operation.common.tick = some entry)
      (mint : Mint db.toOwnershipStore db.toRangeStore ranges context.operation.common.tick
        entry.info.info ids tokenId context.txScore info.toSpk)
      (supply : Supply db.toOwnershipStore db.toRangeStore context.operation.common.tick
        entry.info.info.max entry.info.info.premint ids) :
      Applied kaspa db context
        { db with
          toRangeStore := ranges
          toOwnershipStore := db.recordMint context.operation.common.tick (ids.length + 1)
            tokenId context.txScore info.toSpk }
        ⟨⟨context.operation.common, .mint { info with tokenId }⟩, none⟩
  | transferred (info : TransferInfo) (current : CurrentOwnershipValue)
      (kind : context.operation.info = .transfer info)
      (owned : db.currentOwnership.get ⟨context.operation.common.tick, info.tokenId⟩ =
        some current)
      (bySender : current.owner = context.operation.common.sender)
      (unlisted : db.listings.get ⟨context.operation.common.tick, info.tokenId⟩ = none) :
      Applied kaspa db context
        { db with
          toOwnershipStore := db.recordTransfer context.operation.common.tick info.tokenId
            context.txScore current.owner info.toSpk }
        ⟨context.operation, none⟩
  | discounted (info : DiscountInfo) (entry : ScoredDeployInfoWithCommon)
      (kind : context.operation.info = .discount info)
      (found : db.collectionRegistry.get context.operation.common.tick = some entry)
      (byDeployer : context.operation.common.sender = entry.info.info.deployer)
      (lower : info.fee < royaltyFee entry.info.info.royalty) :
      Applied kaspa db context
        { db with
          scoreToDiscount := db.scoreToDiscount.insert
            ⟨context.txScore, context.operation.common.tick, info.toSpk⟩ info.fee
          vip := db.vip.insert ⟨info.toSpk, context.operation.common.tick,
            u64Max - context.txScore, info.fee⟩ () }
        ⟨context.operation, none⟩
  | listed (info : ListingInfo) (current : CurrentOwnershipValue)
      (kind : context.operation.info = .list info)
      (owned : db.currentOwnership.get ⟨context.operation.common.tick, info.tokenId⟩ =
        some current)
      (bySender : current.owner = context.operation.common.sender)
      (unlisted : db.listings.get ⟨context.operation.common.tick, info.tokenId⟩ = none)
      (locked : kaspa.payToScriptHashScript info.redeemScript = info.utxoAddress) :
      Applied kaspa db context
        (db.insertListing context.operation.common.tick info.tokenId {
          seller := context.operation.common.sender
          listingTxId := context.operation.common.txId
          utxoAddress := info.utxoAddress
          redeemScript := info.redeemScript
          opScore := context.txScore })
        ⟨context.operation, none⟩
  | sold (info : SendInfo) (listing : ListingValue) (buyer : ScriptPublicKey)
      (kind : context.operation.info = .send info)
      (found : db.listings.get ⟨context.operation.common.tick, info.tokenId⟩ = some listing)
      (spends : info.listingUtxoTxid = listing.listingTxId) (toBuyer : info.buyer = some buyer) :
      Applied kaspa db context
        (Db.removeListing { db with
          toOwnershipStore := db.recordTransfer context.operation.common.tick info.tokenId
            context.txScore listing.seller buyer }
          context.operation.common.tick info.tokenId listing.seller)
        ⟨context.operation, none⟩
  | cancelled (info : SendInfo) (listing : ListingValue)
      (kind : context.operation.info = .send info)
      (found : db.listings.get ⟨context.operation.common.tick, info.tokenId⟩ = some listing)
      (spends : info.listingUtxoTxid = listing.listingTxId) (noBuyer : info.buyer = none) :
      Applied kaspa db context
        (db.removeListing context.operation.common.tick info.tokenId listing.seller)
        ⟨context.operation, none⟩

/-- What the source promises of an operation: a deployment is sound. -/
def Operation.Sound (operation : Operation) : Prop :=
  ∀ info, operation.info = .deploy info → info.Sound

instance : ∀ operation : Operation, Decidable operation.Sound
  | ⟨_, .deploy info⟩ => decidable_of_iff info.Sound (by simp [Operation.Sound])
  | ⟨_, .mint _⟩ | ⟨_, .transfer _⟩ | ⟨_, .discount _⟩ | ⟨_, .list _⟩ | ⟨_, .send _⟩ =>
      .isTrue (by simp [Operation.Sound])

section Handlers

variable {kaspa : Kaspa} {db : Db} {context : ContextOperation} {bound : ℕ}

/-! Four of the handlers settle an operation in any database. -/

theorem processTransfer_applied {info : TransferInfo}
    (kind : context.operation.info = .transfer info) :
    Applied kaspa db context
      (processTransfer db context.txScore context.operation.common info).1
      ⟨context.operation,
        (processTransfer db context.txScore context.operation.common info).2⟩ := by
  rcases processTransfer_cases db context.txScore context.operation.common info with
    ⟨error, refused⟩ | ⟨current, owned, bySender, unlisted, accepted⟩
  · rw [refused]
    exact .rejected error
  · rw [accepted]
    exact .transferred info current kind owned bySender unlisted

theorem processDiscount_applied {info : DiscountInfo}
    (kind : context.operation.info = .discount info) :
    Applied kaspa db context
      (processDiscount db context.txScore context.operation.common info).1
      ⟨context.operation,
        (processDiscount db context.txScore context.operation.common info).2⟩ := by
  rcases processDiscount_cases db context.txScore context.operation.common info with
    ⟨error, refused⟩ | ⟨entry, found, byDeployer, lower, accepted⟩
  · rw [refused]
    exact .rejected error
  · rw [accepted]
    exact .discounted info entry kind found byDeployer lower

theorem processList_applied {info : ListingInfo} (kind : context.operation.info = .list info) :
    Applied kaspa db context
      (processList kaspa db context.txScore context.operation.common info).1
      ⟨context.operation,
        (processList kaspa db context.txScore context.operation.common info).2⟩ := by
  rcases processList_cases db context.txScore context.operation.common kaspa info with
    ⟨error, refused⟩ | ⟨_, current, _, owned, bySender, unlisted, locked, accepted⟩
  · rw [refused]
    exact .rejected error
  · rw [accepted]
    exact .listed info current kind owned bySender unlisted locked

theorem processSend_applied {info : SendInfo} (kind : context.operation.info = .send info) :
    Applied kaspa db context
      (processSend db context.txScore context.operation.common info).1
      ⟨context.operation,
        (processSend db context.txScore context.operation.common info).2⟩ := by
  rcases processSend_cases db context.txScore context.operation.common info with
    ⟨error, refused⟩ | ⟨listing, found, spends, ⟨buyer, toBuyer, sold⟩ | ⟨noBuyer, cancelled⟩⟩
  · rw [refused]
    exact .rejected error
  · rw [sold]
    exact .sold info listing buyer kind found spends toBuyer
  · rw [cancelled]
    exact .cancelled info listing kind found spends noBuyer

/-! A deployment or a mint could fault if the ledger were not well formed. -/

theorem processDeployment_applied (wf : db.toLedger.Wf bound) (reached : bound ≤ context.txScore)
    {info : DeployInfo} (kind : context.operation.info = .deploy info) (sound : info.Sound) :
    ∃ db' error, processDeployment db context.txScore context.operation.common info =
        .ok (db', error) ∧ Applied kaspa db context db' ⟨context.operation, error⟩ := by
  cases found : db.collectionRegistry.get context.operation.common.tick with
  | some entry =>
      have older := wf.collections.under _ entry found
      simp only at older
      simp only [processDeployment, found, if_neg (not_le.2 (older.trans_le reached))]
      exact ⟨_, _, rfl, .rejected _⟩
  | none =>
      have supply := wf.undeployed found info.max info.premint
      have run := premintLoop_eq info.premint { db with
          collectionRegistry := db.collectionRegistry.insert context.operation.common.tick
            ⟨context.txScore, info, context.operation.common⟩
          collectionDeployments := db.collectionDeployments.insert
            ⟨context.txScore, context.operation.common.tick⟩
            ⟨info, context.operation.common⟩ }
        (Partition.get_insert_self _ _ _) sound supply (by simp)
      simp only [processDeployment, found, run]
      exact ⟨_, _, rfl, .deployed info kind found⟩

theorem applyOperation_mint_applied (wf : db.toLedger.Wf bound) {info : MintInfo}
    (kind : context.operation.info = .mint info) :
    ∃ db' checked, applyOperation kaspa db context = .ok (db', checked) ∧
      Applied kaspa db context db' checked := by
  unfold applyOperation
  simp only [kind]
  cases found : db.collectionRegistry.get context.operation.common.tick with
  | none =>
      simp only [processMint, found]
      exact ⟨_, _, rfl, .rejected _⟩
  | some entry =>
      obtain ⟨soundEntry, ids, supply⟩ := wf.deployed found
      rcases processMint_outcome context.mergesetEntropy context.txScore info found soundEntry
        supply with ⟨error, refused⟩ | ⟨ranges, tokenId, success, mint⟩
      · simp only [refused]
        exact ⟨_, _, rfl, .rejected _⟩
      · simp only [success]
        exact ⟨_, _, rfl, .minted info entry ids tokenId ranges kind found mint supply⟩

/-- On a well-formed ledger every operation settles in one of these ways, without a fault. -/
theorem applyOperation_applied (wf : db.toLedger.Wf bound) (reached : bound ≤ context.txScore)
    (sound : context.operation.Sound) :
    ∃ db' checked, applyOperation kaspa db context = .ok (db', checked) ∧
      Applied kaspa db context db' checked := by
  cases kind : context.operation.info with
  | deploy info =>
      obtain ⟨db', error, success, applied⟩ :=
        @processDeployment_applied kaspa db context bound wf reached info kind (sound info kind)
      simp only [applyOperation, kind, success]
      exact ⟨_, _, rfl, applied⟩
  | mint info => exact applyOperation_mint_applied wf kind
  | transfer info =>
      simp only [applyOperation, kind]
      exact ⟨_, _, rfl, processTransfer_applied kind⟩
  | discount info =>
      simp only [applyOperation, kind]
      exact ⟨_, _, rfl, processDiscount_applied kind⟩
  | list info =>
      simp only [applyOperation, kind]
      exact ⟨_, _, rfl, processList_applied kind⟩
  | send info =>
      simp only [applyOperation, kind]
      exact ⟨_, _, rfl, processSend_applied kind⟩

end Handlers

/-! Each group of partitions stays in agreement. -/

theorem LogStore.Wf.record {store : LogStore} {bound score : ℕ} (checked : CheckedOperation)
    (wf : store.Wf bound) (reached : bound ≤ score)
    (fresh : store.txIdToOpscore.get checked.operation.common.txId = none) :
    LogStore.Wf ⟨store.operationHistory.insert score checked,
      store.txIdToOpscore.insert checked.operation.common.txId score⟩ (score + 1) where
  under := (wf.under.mono (by omega)).insert (Nat.lt_succ_self score)
  indexed := by
    intro txId score'
    have indexed := @wf.indexed txId score'
    have unused : store.operationHistory.get score = none := by
      cases stored : store.operationHistory.get score with
      | none => rfl
      | some checked =>
          have low := wf.under _ _ stored
          simp only at low
          omega
    simp only [Partition.get_insert]
    grind

theorem CollectionStore.Wf.deploy {store : CollectionStore} {bound score : ℕ} {tick : Tick}
    {info : DeployInfo} {common : OperationCommon} (wf : store.Wf bound)
    (reached : bound ≤ score) (free : store.collectionRegistry.get tick = none) :
    CollectionStore.Wf
      ⟨store.collectionDeployments.insert ⟨score, tick⟩ ⟨info, common⟩,
        store.collectionRegistry.insert tick ⟨score, info, common⟩⟩ (score + 1) where
  under := (wf.under.mono (by omega)).insert (Nat.lt_succ_self score)
  deployments := by
    intro score' tick' deployed
    have deployments := @wf.deployments score' tick' deployed
    simp only [Partition.get_insert, DeploymentKey.mk.injEq]
    grind

theorem Backed.record {store : LogStore} {bound score : ℕ} (checked : CheckedOperation)
    {token : OwnershipKey} {listing : ListingValue} (wf : store.Wf bound)
    (reached : bound ≤ score)
    (fresh : store.txIdToOpscore.get checked.operation.common.txId = none)
    (backed : Backed store token listing) :
    Backed ⟨store.operationHistory.insert score checked,
      store.txIdToOpscore.insert checked.operation.common.txId score⟩ token listing where
  indexed := by
    rw [Partition.get_insert_of_ne]
    · exact backed.indexed
    · intro same
      rw [same, backed.indexed] at fresh
      cases fresh
  logged := by
    obtain ⟨common, info, stored, rest⟩ := backed.logged
    refine ⟨common, info, ?_, rest⟩
    rw [Partition.get_insert_of_ne]
    · exact stored
    · have low := wf.under _ _ stored
      simp only at low
      omega

/-- The logged operation is the given one, but for the token id that a mint draws. -/
structure CheckedOperation.Records (checked : CheckedOperation) (operation : Operation) :
    Prop where
  common : checked.operation.common = operation.common
  info : checked.operation.info = operation.info ∨ ∃ info tokenId,
    operation.info = .mint info ∧ checked.operation.info = .mint { info with tokenId }

namespace Applied

variable {kaspa : Kaspa} {db db' : Db} {context : ContextOperation} {checked : CheckedOperation}
variable {bound : ℕ}

/-- Only the loop around an operation writes the log and the chain blocks. -/
theorem frame (applied : Applied kaspa db context db' checked) :
    db'.toLogStore = db.toLogStore ∧ db'.toChainStore = db.toChainStore ∧
      checked.operation.common = context.operation.common := by
  cases applied <;> exact ⟨rfl, rfl, rfl⟩

theorem records (applied : Applied kaspa db context db' checked) :
    checked.Records context.operation := by
  cases applied with
  | minted info entry ids tokenId ranges kind found mint supply =>
      exact ⟨rfl, .inr ⟨info, tokenId, kind, rfl⟩⟩
  | _ => exact ⟨rfl, .inl rfl⟩

theorem collections (applied : Applied kaspa db context db' checked)
    (wf : db.toLedger.Wf bound) (reached : bound ≤ context.txScore) :
    db'.toCollectionStore.Wf (context.txScore + 1) := by
  have kept : db.toCollectionStore.Wf (context.txScore + 1) :=
    ⟨wf.collections.under.mono (by omega), wf.collections.deployments⟩
  cases applied with
  | deployed info kind free => exact wf.collections.deploy reached free
  | _ => exact kept

theorem owned (applied : Applied kaspa db context db' checked)
    (wf : db.toLedger.Wf bound) (reached : bound ≤ context.txScore)
    (le : context.txScore ≤ u64Max) (sound : context.operation.Sound) :
    db'.toOwnershipStore.Wf (context.txScore + 1) := by
  have kept : db.toOwnershipStore.Wf (context.txScore + 1) :=
    wf.owned.mono (by omega) (by omega)
  cases applied with
  | rejected error => exact kept
  | deployed info kind free =>
      exact (OwnershipStore.premints_spec _ _ kept (Nat.lt_succ_self _) (sound info kind)
        (wf.undeployed free _ _) (by simp)).1
  | minted info entry ids tokenId ranges kind found mint supply =>
      exact kept.mint (Nat.lt_succ_self _) supply mint.fresh (Nat.succ_pos _)
  | transferred info current kind owned bySender unlisted =>
      exact wf.owned.recordTransfer reached le owned
  | discounted info entry kind found byDeployer lower => exact kept
  | listed info current kind owned bySender unlisted locked => exact kept
  | sold info listing buyer kind found spends toBuyer =>
      obtain ⟨_, modTxScore, owned⟩ := wf.listed found
      exact wf.owned.recordTransfer reached le owned
  | cancelled info listing kind found spends noBuyer => exact kept

theorem mem_of_owned {max premint : ℕ} {ids : List ℕ} {token : OwnershipKey}
    {value : CurrentOwnershipValue} (wf : db.toLedger.Wf bound)
    (supply : Supply db.toOwnershipStore db.toRangeStore token.tick max premint ids)
    (owned : db.currentOwnership.get token = some value) : token.tokenId ∈ ids := by
  by_contra missing
  rw [wf.owned.current_eq_none_iff.2] at owned
  · cases owned
  · intro reversed
    rw [← Option.not_isSome_iff_eq_none]
    exact fun present => missing (supply.known present)

/-- The supply of a tick after an operation. The mints of other ticks are not touched, and a
transfer or sale concerns an id that is out. -/
theorem supply (applied : Applied kaspa db context db' checked)
    (wf : db.toLedger.Wf bound) (reached : bound ≤ context.txScore)
    (le : context.txScore ≤ u64Max) (sound : context.operation.Sound) :
    (∀ {tick entry}, db'.collectionRegistry.get tick = some entry →
      entry.info.info.Sound ∧ ∃ ids, Supply db'.toOwnershipStore db'.toRangeStore tick
        entry.info.info.max entry.info.info.premint ids) ∧
    (∀ {tick}, db'.collectionRegistry.get tick = none →
      ∀ max premint, Supply db'.toOwnershipStore db'.toRangeStore tick max premint []) := by
  have kept : db.toOwnershipStore.Wf (context.txScore + 1) :=
    wf.owned.mono (by omega) (by omega)
  -- a change of owner keeps the supply of every tick
  have transfers : ∀ {tokenId modTxScore : ℕ} {fromSpk toSpk : ScriptPublicKey},
      db.currentOwnership.get ⟨context.operation.common.tick, tokenId⟩ =
        some ⟨fromSpk, modTxScore⟩ →
      ∀ {tick max premint ids}, Supply db.toOwnershipStore db.toRangeStore tick max premint ids →
        Supply (db.recordTransfer context.operation.common.tick tokenId context.txScore fromSpk
          toSpk) db.toRangeStore tick max premint ids := by
    intro tokenId modTxScore fromSpk toSpk owned tick max premint ids supply
    refine supply.transfer fun same => ?_
    subst same
    exact mem_of_owned wf supply owned
  cases applied with
  | rejected error => exact ⟨wf.deployed, wf.undeployed⟩
  | deployed info kind free =>
      constructor
      · intro tick entry found
        simp only [Partition.get_insert] at found
        split at found
        · cases found
          rename_i same
          subst same
          obtain ⟨_, ids, _, after⟩ := OwnershipStore.premints_spec info.premint
            info.deployer kept (Nat.lt_succ_self _) (sound info kind)
            (wf.undeployed free _ _) (by simp)
          exact ⟨sound info kind, ids, after⟩
        · rename_i different
          obtain ⟨soundEntry, ids, supply⟩ := wf.deployed found
          exact ⟨soundEntry, ids, OwnershipStore.premints_other supply (Ne.symm different)⟩
      · intro tick missing max premint
        simp only [Partition.get_insert] at missing
        split at missing
        · cases missing
        · rename_i different
          exact OwnershipStore.premints_other (wf.undeployed missing max premint)
            (Ne.symm different)
  | minted info entry ids tokenId ranges kind found mint supply =>
      constructor
      · intro tick entry' found'
        by_cases same : tick = context.operation.common.tick
        · subst same
          have equal : entry' = entry := Option.some.inj (found'.symm.trans found)
          subst equal
          exact ⟨(wf.deployed found).1, _, mint.supply⟩
        · obtain ⟨soundEntry, ids', supply'⟩ := wf.deployed found'
          exact ⟨soundEntry, ids', supply'.mint_other same (mint.frame _ same)
            (mint.tokenIdMeta _ same)⟩
      · intro tick missing max premint
        have different : tick ≠ context.operation.common.tick := by
          rintro rfl
          rw [found] at missing
          cases missing
        exact (wf.undeployed missing max premint).mint_other different (mint.frame _ different)
          (mint.tokenIdMeta _ different)
  | transferred info current kind owned bySender unlisted =>
      refine ⟨fun found => ?_, fun missing max premint =>
        transfers owned (wf.undeployed missing max premint)⟩
      obtain ⟨soundEntry, ids, supply⟩ := wf.deployed found
      exact ⟨soundEntry, ids, transfers owned supply⟩
  | discounted info entry kind found byDeployer lower => exact ⟨wf.deployed, wf.undeployed⟩
  | listed info current kind owned bySender unlisted locked =>
      exact ⟨wf.deployed, wf.undeployed⟩
  | sold info listing buyer kind found spends toBuyer =>
      obtain ⟨_, modTxScore, owned⟩ := wf.listed found
      refine ⟨fun found => ?_, fun missing max premint =>
        transfers owned (wf.undeployed missing max premint)⟩
      obtain ⟨soundEntry, ids, supply⟩ := wf.deployed found
      exact ⟨soundEntry, ids, transfers owned supply⟩
  | cancelled info listing kind found spends noBuyer => exact ⟨wf.deployed, wf.undeployed⟩

theorem vip (applied : Applied kaspa db context db' checked)
    (wf : db.toLedger.Wf bound) (reached : bound ≤ context.txScore)
    (le : context.txScore ≤ u64Max) :
    db'.vip.Under VipKey.rowScore (context.txScore + 1) := by
  have kept : db.vip.Under VipKey.rowScore (context.txScore + 1) := wf.vip.mono (by omega)
  cases applied with
  | discounted info entry kind found byDeployer lower =>
      refine kept.insert ?_
      simp only [VipKey.rowScore]
      omega
  | _ => exact kept

theorem indexed (applied : Applied kaspa db context db' checked)
    (wf : db.toLedger.Wf bound) (token : OwnershipKey) :
    db'.listingsByTick.get ⟨token.tick, token.tokenId⟩ =
      (db'.listings.get token).map fun _ => () := by
  have kept := wf.indexed token
  obtain ⟨tick, tokenId⟩ := token
  have same : ∀ tick' tokenId', (⟨tick', tokenId'⟩ : OwnershipKey) = ⟨tick, tokenId⟩ ↔
      (⟨tick', tokenId'⟩ : ListingByTickKey) = ⟨tick, tokenId⟩ := by
    intro tick' tokenId'
    rw [OwnershipKey.mk.injEq, ListingByTickKey.mk.injEq]
  cases applied with
  | listed info current kind owned bySender unlisted locked =>
      simp only [Db.insertListing, Partition.get_insert, same]
      split
      · rfl
      · exact kept
  | sold info listing buyer kind found spends toBuyer =>
      simp only [Db.removeListing, Partition.get_erase, same]
      split
      · rfl
      · exact kept
  | cancelled info listing kind found spends noBuyer =>
      simp only [Db.removeListing, Partition.get_erase, same]
      split
      · rfl
      · exact kept
  | _ => exact kept

/-- Every listing is backed by its logged list operation and held by its seller. -/
theorem backed (applied : Applied kaspa db context db' checked)
    (wf : db.toLedger.Wf bound) (reached : bound ≤ context.txScore)
    (fresh : db.txIdToOpscore.get context.operation.common.txId = none)
    {token : OwnershipKey} {listing : ListingValue}
    (stored : db'.listings.get token = some listing) :
    Backed (db'.recordOperation context.txScore checked).toLogStore token listing ∧
      ∃ modTxScore, db'.currentOwnership.get token = some ⟨listing.seller, modTxScore⟩ := by
  obtain ⟨sameLog, _, sameCommon⟩ := applied.frame
  -- an older listing stays backed
  have older : ∀ {token : OwnershipKey} {listing : ListingValue},
      db.listings.get token = some listing →
        Backed (db'.recordOperation context.txScore checked).toLogStore token listing := by
    intro token listing stored
    have backed := (wf.listed stored).1.record checked wf.log reached
      (by rw [sameCommon]; exact fresh)
    rw [← sameLog] at backed
    exact backed
  cases applied with
  | rejected error => exact ⟨older stored, (wf.listed stored).2⟩
  | deployed info kind free =>
      obtain ⟨_, modTxScore, owned⟩ := wf.listed stored
      refine ⟨older stored, modTxScore, ?_⟩
      simp only
      rw [OwnershipStore.premints_currentOwnership]
      · exact owned
      · intro same
        have member := mem_of_owned wf (wf.undeployed (same ▸ free) 0 0) owned
        cases member
  | minted info entry ids tokenId ranges kind found mint supply =>
      obtain ⟨_, modTxScore, owned⟩ := wf.listed stored
      refine ⟨older stored, modTxScore, ?_⟩
      simp only [OwnershipStore.recordMint]
      rw [Partition.get_insert_of_ne]
      · exact owned
      · rintro rfl
        exact mint.fresh (mem_of_owned wf supply owned)
  | transferred info current kind owned bySender unlisted =>
      obtain ⟨_, modTxScore, held⟩ := wf.listed stored
      refine ⟨older stored, modTxScore, ?_⟩
      simp only [OwnershipStore.recordTransfer]
      rw [Partition.get_insert_of_ne]
      · exact held
      · rintro rfl
        rw [unlisted] at stored
        cases stored
  | discounted info entry kind found byDeployer lower => exact ⟨older stored, (wf.listed stored).2⟩
  | listed info current kind owned bySender unlisted locked =>
      simp only [Db.insertListing, Partition.get_insert] at stored
      split at stored
      · rename_i same
        subst same
        cases stored
        refine ⟨⟨?_, context.operation.common, info, ?_, rfl, rfl, rfl, rfl, rfl⟩,
          current.modTxScore, ?_⟩
        · simp [Db.recordOperation]
        · simp [Db.recordOperation, ← kind]
        · simp only [Db.insertListing]
          rw [owned, ← bySender]
      · exact ⟨older stored, (wf.listed stored).2⟩
  | sold info listing' buyer kind found spends toBuyer =>
      simp only [Db.removeListing, Partition.get_erase] at stored
      split at stored
      · cases stored
      · rename_i different
        obtain ⟨_, modTxScore, held⟩ := wf.listed stored
        refine ⟨older stored, modTxScore, ?_⟩
        simp only [Db.removeListing, OwnershipStore.recordTransfer]
        rw [Partition.get_insert_of_ne _ _ different]
        exact held
  | cancelled info listing' kind found spends noBuyer =>
      simp only [Db.removeListing, Partition.get_erase] at stored
      split at stored
      · cases stored
      · exact ⟨older stored, (wf.listed stored).2⟩

/-- An accepted send takes the listing it names off the books. -/
theorem accepted_send (applied : Applied kaspa db context db' checked)
    {common : OperationCommon} {info : SendInfo}
    (accepted : checked = ⟨⟨common, .send info⟩, none⟩) :
    ∃ listing, context.operation = ⟨common, .send info⟩ ∧
      db.listings.get ⟨common.tick, info.tokenId⟩ = some listing ∧
      info.listingUtxoTxid = listing.listingTxId ∧
      db'.listings = db.listings.erase ⟨common.tick, info.tokenId⟩ := by
  cases applied with
  | rejected error =>
      have refused := congrArg CheckedOperation.error accepted
      cases refused
  | minted info entry ids tokenId ranges kind found mint supply => cases accepted
  | deployed info kind free
  | transferred info current kind owned bySender unlisted
  | discounted info entry kind found byDeployer lower
  | listed info current kind owned bySender unlisted locked =>
      have operation := congrArg CheckedOperation.operation accepted
      simp only at operation
      rw [operation] at kind
      cases kind
  | sold info listing buyer kind found spends toBuyer
  | cancelled info listing kind found spends noBuyer =>
      have operation := congrArg CheckedOperation.operation accepted
      simp only at operation
      rw [operation] at kind found ⊢
      cases kind
      exact ⟨listing, rfl, found, spends, rfl⟩

theorem settled (applied : Applied kaspa db context db' checked)
    (wf : db.toLedger.Wf bound) (reached : bound ≤ context.txScore)
    (fresh : db.txIdToOpscore.get context.operation.common.txId = none)
    {score : ℕ} {common : OperationCommon} {info : SendInfo}
    (logged : (db'.recordOperation context.txScore checked).operationHistory.get score =
      some ⟨⟨common, .send info⟩, none⟩) :
    ∃ listScore, (db'.recordOperation context.txScore checked).txIdToOpscore.get
      info.listingUtxoTxid = some listScore ∧ listScore < score := by
  obtain ⟨sameLog, _, sameCommon⟩ := applied.frame
  -- the index keeps the transactions it knew
  have known : ∀ {txId listScore}, db.txIdToOpscore.get txId = some listScore →
      (db'.recordOperation context.txScore checked).txIdToOpscore.get txId = some listScore := by
    intro txId listScore stored
    have indexEq : db'.txIdToOpscore = db.txIdToOpscore :=
      congrArg LogStore.txIdToOpscore sameLog
    rw [Db.recordOperation, indexEq, Partition.get_insert_of_ne]
    · exact stored
    · rintro rfl
      rw [sameCommon, fresh] at stored
      cases stored
  have historyEq : db'.operationHistory = db.operationHistory :=
    congrArg LogStore.operationHistory sameLog
  rw [Db.recordOperation, historyEq, Partition.get_insert] at logged
  split at logged
  · rename_i same
    subst same
    obtain ⟨listing, _, found, spends, _⟩ := applied.accepted_send (Option.some.inj logged)
    have backed := (wf.listed found).1
    obtain ⟨_, _, stored, _⟩ := backed.logged
    have low := wf.log.under _ _ stored
    simp only at low
    exact ⟨listing.opScore, known (by rw [spends]; exact backed.indexed), by omega⟩
  · obtain ⟨listScore, stored, older⟩ := wf.settled logged
    exact ⟨listScore, known stored, older⟩

theorem wf (applied : Applied kaspa db context db' checked)
    (wf : db.toLedger.Wf bound) (reached : bound ≤ context.txScore)
    (le : context.txScore ≤ u64Max) (sound : context.operation.Sound)
    (fresh : db.txIdToOpscore.get context.operation.common.txId = none) :
    (db'.recordOperation context.txScore checked).toLedger.Wf (context.txScore + 1) := by
  obtain ⟨sameLog, _, sameCommon⟩ := applied.frame
  obtain ⟨deployed, undeployed⟩ := applied.supply wf reached le sound
  refine ⟨by omega, ?_, applied.collections wf reached, applied.owned wf reached le sound,
    deployed, undeployed, applied.vip wf reached le, applied.backed wf reached fresh,
    applied.indexed wf, applied.settled wf reached fresh⟩
  have recorded := wf.log.record checked reached (by rw [sameCommon]; exact fresh)
  rw [← sameLog] at recorded
  exact recorded

end Applied

theorem Ledger.Wf.empty : ({} : Ledger).Wf 0 where
  bounded := Nat.zero_le _
  log := ⟨Partition.under_empty, by simp⟩
  collections := ⟨Partition.under_empty, by simp⟩
  owned := .empty (Nat.zero_le _)
  deployed := by simp
  undeployed := by
    intro tick _ max premint
    exact ⟨Issued.nil_iff.2 (by simp), List.nodup_nil, Nat.zero_le _, by simp, by simp,
      ⟨none, ⟨Partition.get_empty _, fun index => Partition.get_empty _⟩, by simp, by simp⟩,
      by simp, by simp⟩
  vip := Partition.under_empty
  listed := by simp
  indexed := by simp
  settled := by simp

end Krc721
