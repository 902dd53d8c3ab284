import Krc721.Processor.Convergence
import Krc721.Processor.ForkedRuns
import Krc721.Processor.RemovedRows

/-! What the rows of a database say in every run, also in one that processes forks: each listing
stems from a transaction that listed its token, and every token belongs to a registered
collection. -/

set_option autoImplicit false

namespace Krc721

open OrderedStore

/-! The transactions of listings. -/

/-- Every listing has a source, also those that the accepted sends of the log settled. -/
structure Db.Sourced (source : OwnershipKey → TransactionId → Prop) (db : Db) : Prop where
  listed : ∀ {token listing}, db.listings.get token = some listing →
    source token listing.listingTxId
  sent : ∀ {score common info},
    db.operationHistory.get score = some ⟨⟨common, .send info⟩, none⟩ →
      source ⟨common.tick, info.tokenId⟩ info.listingUtxoTxid

/-- The transaction of a list operation is a source of the listing that it asks for. -/
def Operation.Sources (source : OwnershipKey → TransactionId → Prop) (operation : Operation) :
    Prop :=
  ∀ info, operation.info = .list info →
    source ⟨operation.common.tick, info.tokenId⟩ operation.common.txId

namespace Db.Sourced

variable {kaspa : Kaspa} {source : OwnershipKey → TransactionId → Prop} {db db' : Db}
variable {context : ContextOperation}

theorem writesKeep (sources : context.operation.Sources source) :
    WritesKeep context (Db.Sourced source) where
  registers := fun _ _ sourced => ⟨sourced.listed, sourced.sent⟩
  mints := fun _ sourced => ⟨sourced.listed, sourced.sent⟩
  transfers := fun _ sourced => ⟨sourced.listed, sourced.sent⟩
  discounts := fun _ _ sourced => ⟨sourced.listed, sourced.sent⟩
  lists := by
    intro db info listing kind _ sameTx _ sourced
    refine ⟨fun found => ?_, sourced.sent⟩
    simp only [Db.insertListing, Partition.get_insert] at found
    split at found
    · rename_i same
      cases found
      rw [← same, sameTx]
      exact sources info kind
    · exact sourced.listed found
  delists := by
    intro db tokenId seller sourced
    refine ⟨fun found => ?_, sourced.sent⟩
    simp only [Db.removeListing, Partition.get_erase] at found
    split at found
    · cases found
    · exact sourced.listed found

theorem operation (sourced : db.Sourced source) (sources : context.operation.Sources source)
    {checked : CheckedOperation} (success : applyOperation kaspa db context = .ok (db', checked)) :
    (db'.recordOperation context.txScore checked).Sourced source := by
  have written := (writesKeep sources).applyOperation success sourced
  refine ⟨written.listed, fun {score common info} logged => ?_⟩
  simp only [Db.recordOperation, Partition.get_insert] at logged
  split at logged
  · cases logged
    obtain ⟨same, _, listing, found, spends⟩ := applyOperation_sent success rfl rfl
    rw [spends]
    rw [← same] at found
    exact sourced.listed found
  · exact written.sent logged

theorem cleared {threshold : ℕ} (sourced : db.Sourced source) (cleared : Cleared threshold db db') :
    db'.Sourced source where
  listed := by
    intro token listing found
    rcases (cleared.listings found).2 with kept | restored
    · exact sourced.listed kept
    · obtain ⟨score, common, info, logged, same, sameTx, _⟩ := restored
      rw [same, sameTx]
      exact sourced.sent logged
  sent := fun logged => sourced.sent (cleared.log logged).1

theorem runKeeps {adds : Db → List Mergeset → Prop}
    (promised : ∀ {db mergesets}, adds db mergesets → ∀ mergeset ∈ mergesets,
      ∀ op ∈ mergeset.operations, op.operation.Sources source) :
    RunKeeps kaspa adds (fun _ _ _ => True) (Operation.Sources source) (Db.Sourced source) where
  accept := fun _ sourced => ⟨sourced.listed, sourced.sent⟩
  operation := fun _ _ sources success sourced => sourced.operation sources success
  new := ⟨by simp [Db.new], by simp [Db.new]⟩
  promised := promised
  removal := by
    intro db db' removed forced diff _ success sourced
    rcases processRemoval_cleared success with same | ⟨_, _, cleared⟩
    · rw [same]
      exact sourced
    · exact sourced.cleared cleared
  bookkeeping := fun _ _ sourced => ⟨sourced.listed, sourced.sent⟩

theorem of_run {adds : Db → List Mergeset → Prop}
    (run : GuardedRun kaspa adds (fun _ _ _ => True) db)
    (promised : ∀ {db mergesets}, adds db mergesets → ∀ mergeset ∈ mergesets,
      ∀ op ∈ mergeset.operations, op.operation.Sources source) : db.Sourced source :=
  (runKeeps promised).run run

end Db.Sourced

/-! Scores that are not cut off. -/

theorem Kaspa.Fits.mono {kaspa : Kaspa} {blueScore lower : ℕ} (fits : kaspa.Fits blueScore)
    (le : lower ≤ blueScore) : kaspa.Fits lower :=
  (Nat.mul_le_mul_right _ le).trans_lt fits

theorem Mergeset.Valid.blueScore_fits {kaspa : Kaspa} {mergeset : Mergeset}
    (valid : mergeset.Valid kaspa) : kaspa.Fits mergeset.blueScore := by
  have positive : 0 < kaspa.blockCapacity := Nat.mul_pos kaspa.mergeSetLimit_pos (by decide)
  have fits := valid.fits
  rw [Nat.succ_mul] at fits
  unfold Kaspa.Fits
  omega

namespace ChainStore

/-- The blue scores of the stored blocks and of their index are not cut off. -/
structure Fitting (kaspa : Kaspa) (chain : ChainStore) : Prop where
  blocks : ∀ {block}, (chain.chainBlockScores.get block).isSome → kaspa.Fits block.blueScore
  index : ∀ {hash score}, chain.blockhashToScore.get hash = some score → kaspa.Fits score

variable {kaspa : Kaspa} {chain : ChainStore}

theorem Fitting.accept (fitting : chain.Fitting kaspa) {mergeset : Mergeset}
    (valid : mergeset.Valid kaspa) : (chain.accept mergeset).Fitting kaspa where
  blocks := by
    intro block isStored
    rcases stores_accept.1 isStored with same | earlier
    · rw [same]
      exact valid.blueScore_fits
    · exact fitting.blocks earlier
  index := by
    intro hash score found
    simp only [ChainStore.accept, Partition.get_insert] at found
    split at found
    · cases found
      exact valid.blueScore_fits
    · exact fitting.index found

theorem Fitting.lookup (fitting : chain.Fitting kaspa) {block : RpcHash} {score : ℕ}
    (found : chain.lookupRemovedBlockScore block = some score) : kaspa.Fits score := by
  unfold lookupRemovedBlockScore at found
  split at found
  · rename_i indexed
    cases found
    exact fitting.index indexed
  · split at found
    · cases found
    · rename_i lastAccepted last
      split at found
      · cases found
        exact fitting.blocks (Partition.lastKey_eq_some_iff.1 last).1
      · cases found

theorem Fitting.foldl_removeBlock {state : RemovedBlocks} (fitting : state.chain.Fitting kaspa)
    (min : state.foundRemovedBlock = true → kaspa.Fits state.minBlueScore)
    (removed : List RpcHash) : (removed.foldl removeBlock state).chain.Fitting kaspa ∧
      ((removed.foldl removeBlock state).foundRemovedBlock = true →
        kaspa.Fits (removed.foldl removeBlock state).minBlueScore) := by
  induction removed generalizing state with
  | nil => exact ⟨fitting, min⟩
  | cons block removed ih =>
      rw [List.foldl_cons]
      cases looked : state.chain.lookupRemovedBlockScore block with
      | none =>
          simp only [removeBlock, looked]
          exact ih fitting min
      | some score =>
          simp only [removeBlock, looked]
          refine ih ⟨fitting.blocks, fun {hash score} found => ?_⟩ fun _ => ?_
          · simp only [Partition.get_erase] at found
            split at found
            · cases found
            · exact fitting.index found
          · exact (fitting.lookup looked).mono (min_le_right _ _)

/-- A removal to a score that fits cuts at one that fits. -/
theorem Fitting.identified (fitting : chain.Fitting kaspa) (removed : List RpcHash)
    {forced : Option ℕ} (fits : ∀ score, forced = some score → kaspa.Fits score) :
    (chain.identifyReorgBlocksAndDelete removed forced).1.Fitting kaspa ∧
      ∀ minBlueScore, (chain.identifyReorgBlocksAndDelete removed forced).2 = some minBlueScore →
        kaspa.Fits minBlueScore := by
  have start := Fitting.foldl_removeBlock (⟨fitting.blocks, fitting.index⟩ :
    (⟨chain, u64Max, false⟩ : RemovedBlocks).chain.Fitting kaspa) (by simp) removed
  -- what is erased from a fitting chain leaves a fitting one
  have cut {state : ChainStore} (fitting : state.Fitting kaspa) (minBlueScore : ℕ) :
      (state.removeChainStateFromBlueScore minBlueScore).Fitting kaspa := by
    rw [removeChainStateFromBlueScore_eq]
    refine ⟨fun isStored => ?_, fun {hash score} found => ?_⟩
    · exact fitting.blocks ((Partition.isSome_get_below _ fun _ => rfl).1 isStored).1
    · rw [Partition.get_foldl_erase] at found
      split at found
      · cases found
      · exact fitting.index found
  unfold identifyReorgBlocksAndDelete
  generalize removed.foldl removeBlock ⟨chain, u64Max, false⟩ = state at *
  obtain ⟨kept, min⟩ := start
  cases forced with
  | none =>
      simp only
      cases found : state.foundRemovedBlock with
      | true =>
          simp only [if_true, Option.some.injEq, forall_eq']
          exact ⟨cut kept _, min found⟩
      | false => exact ⟨kept, by simp⟩
  | some score =>
      simp only [if_true, Option.some.injEq, forall_eq']
      exact ⟨cut kept _, (fits score rfl).mono (min_le_right _ _)⟩

end ChainStore

/-! The collections of tokens. -/

/-- The collection was deployed in the block of a score, or in one below it. -/
def CollectionStore.RegisteredBy (kaspa : Kaspa) (store : CollectionStore) (tick : Tick)
    (score : ℕ) : Prop :=
  ∃ entry, store.collectionRegistry.get tick = some entry ∧
    entry.score / kaspa.blockCapacity ≤ score / kaspa.blockCapacity

/-- The deployments are those of the registered collections, and each of these was deployed in a
stored block. -/
structure Db.Deployed (kaspa : Kaspa) (db : Db) : Prop where
  deployments : ∀ {score tick}, (db.collectionDeployments.get ⟨score, tick⟩).isSome ↔
    ∃ entry, db.collectionRegistry.get tick = some entry ∧ entry.score = score
  stored : ∀ {tick entry}, db.collectionRegistry.get tick = some entry →
    ∃ block, (db.chainBlockScores.get block).isSome ∧
      block.blueScore = entry.score / kaspa.blockCapacity

namespace Db.Deployed

variable {kaspa : Kaspa} {db db' : Db} {tick : Tick} {score : ℕ}

/-- A registered collection was deployed by the time of the highest block. -/
theorem registeredBy (deployed : db.Deployed kaspa)
    (ends : db.toChainStore.EndsAt (score / kaspa.blockCapacity))
    (registered : (db.collectionRegistry.get tick).isSome) : db.RegisteredBy kaspa tick score := by
  obtain ⟨entry, found⟩ := Option.isSome_iff_exists.1 registered
  obtain ⟨block, isStored, same⟩ := deployed.stored found
  exact ⟨entry, found, same ▸ ends.highest block isStored⟩

theorem register (deployed : db.Deployed kaspa)
    (ends : db.toChainStore.EndsAt (score / kaspa.blockCapacity)) {info : DeployInfo}
    {common : OperationCommon} (free : db.collectionRegistry.get tick = none) :
    Db.Deployed kaspa { db with
      collectionRegistry := db.collectionRegistry.insert tick ⟨score, info, common⟩
      collectionDeployments := db.collectionDeployments.insert ⟨score, tick⟩ ⟨info, common⟩ } where
  deployments := by
    intro score' tick'
    have earlier := @deployed.deployments score' tick'
    simp only [Partition.get_insert, DeploymentKey.mk.injEq]
    by_cases same : tick = tick'
    · subst same
      have undeployed : (db.collectionDeployments.get ⟨score', tick⟩).isSome = false := by
        rw [Bool.eq_false_iff, ne_eq, earlier, free]
        simp
      by_cases sameScore : score = score' <;> simp [sameScore, undeployed]
    · simp only [same, and_false, if_false]
      exact earlier
  stored := by
    intro tick' entry found
    simp only [Partition.get_insert] at found
    split at found
    · cases found
      exact ends.stored
    · exact deployed.stored found

/-- Below a cut at a blue score the collections are kept that were deployed by then. -/
theorem survives (deployed : db.Deployed kaspa) {minBlueScore : ℕ}
    (cleared : Cleared (minBlueScore * kaspa.blockCapacity) db db') {low : ℕ}
    (below : low < minBlueScore * kaspa.blockCapacity) (registered : db.RegisteredBy kaspa tick low)
    (registeredBy : db.RegisteredBy kaspa tick score) : db'.RegisteredBy kaspa tick score := by
  have capacity : 0 < kaspa.blockCapacity := Nat.mul_pos kaspa.mergeSetLimit_pos (by decide)
  obtain ⟨entry, found, early⟩ := registered
  obtain ⟨_, same, le⟩ := registeredBy
  rw [found, Option.some.injEq] at same
  subst same
  refine ⟨entry, cleared.registry.2 ⟨found, fun score present => ?_⟩, le⟩
  obtain ⟨_, same, sameScore⟩ := deployed.deployments.1 present
  rw [found, Option.some.injEq] at same
  subst same
  rw [← sameScore]
  exact (Nat.div_lt_iff_lt_mul capacity).1
    (early.trans_lt ((Nat.div_lt_iff_lt_mul capacity).2 below))

theorem cleared (deployed : db.Deployed kaspa) {minBlueScore : ℕ}
    (cleared : Cleared (minBlueScore * kaspa.blockCapacity) db db')
    (blocks : ∀ {block}, (db.chainBlockScores.get block).isSome →
      block.blueScore < minBlueScore → (db'.chainBlockScores.get block).isSome) :
    db'.Deployed kaspa where
  deployments := by
    intro score tick
    rw [cleared.deployments, deployed.deployments]
    constructor
    · intro kept
      obtain ⟨⟨entry, found, same⟩, low⟩ := kept
      refine ⟨entry, cleared.registry.2 ⟨found, fun score' present => ?_⟩, same⟩
      obtain ⟨_, found', same'⟩ := deployed.deployments.1 present
      rw [found, Option.some.injEq] at found'
      rw [← same', ← found', same]
      exact low
    · intro kept
      obtain ⟨entry, found, same⟩ := kept
      obtain ⟨found, low⟩ := cleared.registry.1 found
      exact ⟨⟨entry, found, same⟩, low score (deployed.deployments.2 ⟨entry, found, same⟩)⟩
  stored := by
    intro tick entry found
    have capacity : 0 < kaspa.blockCapacity := Nat.mul_pos kaspa.mergeSetLimit_pos (by decide)
    obtain ⟨found, low⟩ := cleared.registry.1 found
    obtain ⟨block, isStored, same⟩ := deployed.stored found
    refine ⟨block, blocks isStored ?_, same⟩
    rw [same, Nat.div_lt_iff_lt_mul capacity]
    exact low entry.score (deployed.deployments.2 ⟨entry, found, rfl⟩)

end Db.Deployed

/-! The changes of owner. -/

/-- The rows of tokens stand for changes of owner in registered collections. -/
structure OwnershipStore.Rooted (registered : Tick → ℕ → Prop) (store : OwnershipStore) :
    Prop where
  changes : ∀ {key}, (store.ownershipChanges.get key).isSome → registered key.tick key.score
  mints : ∀ {key}, (store.mintHistory.get key).isSome →
    ∃ change, (store.ownershipChanges.get change).isSome ∧ change.mintKey = key
  history : ∀ {key}, (store.ownershipHistory.get key).isSome →
    ∃ change, (store.ownershipChanges.get change).isSome ∧ change.historyKey = key
  owned : ∀ {token}, (store.currentOwnership.get token).isSome →
    ∃ change, (store.ownershipChanges.get change).isSome ∧
      (⟨change.tick, change.tokenId⟩ : OwnershipKey) = token

namespace OwnershipStore.Rooted

variable {registered registered' : Tick → ℕ → Prop} {store new : OwnershipStore}
variable {tick : Tick} {tokenId score : ℕ}

theorem mono (rooted : store.Rooted registered)
    (le : ∀ {tick score}, registered tick score → registered' tick score) :
    store.Rooted registered' :=
  ⟨fun present => le (rooted.changes present), rooted.mints, rooted.history, rooted.owned⟩

/-- A new row of each kind goes with a new change. -/
theorem insert (rooted : store.Rooted registered) {change : TokenMintsKey}
    (present : registered change.tick change.score)
    (changes : new.ownershipChanges = store.ownershipChanges.insert change ())
    (mints : ∀ {key}, (new.mintHistory.get key).isSome →
      change.mintKey = key ∨ (store.mintHistory.get key).isSome)
    (history : ∀ {key}, (new.ownershipHistory.get key).isSome →
      change.historyKey = key ∨ (store.ownershipHistory.get key).isSome)
    (owned : ∀ {token}, (new.currentOwnership.get token).isSome →
      (⟨change.tick, change.tokenId⟩ : OwnershipKey) = token ∨
        (store.currentOwnership.get token).isSome) : new.Rooted registered := by
  have added : (new.ownershipChanges.get change).isSome := by
    rw [changes, Partition.get_insert_self]
    rfl
  have kept {key} (stored : (store.ownershipChanges.get key).isSome) :
      (new.ownershipChanges.get key).isSome := by
    rw [changes, Partition.get_insert]
    split
    · rfl
    · exact stored
  constructor
  case changes =>
    intro key stored
    rw [changes, Partition.get_insert] at stored
    split at stored
    · rename_i same
      rw [← same]
      exact present
    · exact rooted.changes stored
  case mints =>
    intro key stored
    rcases mints stored with same | earlier
    · exact ⟨change, added, same⟩
    · obtain ⟨older, stored, same⟩ := rooted.mints earlier
      exact ⟨older, kept stored, same⟩
  case history =>
    intro key stored
    rcases history stored with same | earlier
    · exact ⟨change, added, same⟩
    · obtain ⟨older, stored, same⟩ := rooted.history earlier
      exact ⟨older, kept stored, same⟩
  case owned =>
    intro token stored
    rcases owned stored with same | earlier
    · exact ⟨change, added, same⟩
    · obtain ⟨older, stored, same⟩ := rooted.owned earlier
      exact ⟨older, kept stored, same⟩

/-- A key of a partition with one more row. -/
theorem isSome_insert {Key Value : Type} [LinearOrder Key] {partition : Partition Key Value}
    {key key' : Key} {value : Value} (present : ((partition.insert key value).get key').isSome) :
    key = key' ∨ (partition.get key').isSome := by
  rw [Partition.get_insert] at present
  split at present
  · rename_i same
    exact .inl same
  · exact .inr present

theorem recordMint (rooted : store.Rooted registered) (present : registered tick score) (seq : ℕ)
    (toSpk : ScriptPublicKey) : (store.recordMint tick seq tokenId score toSpk).Rooted registered :=
  @insert registered store _ rooted (.withSeq score tick tokenId seq) present rfl isSome_insert
    isSome_insert isSome_insert

theorem recordTransfer (rooted : store.Rooted registered) (present : registered tick score)
    (fromSpk toSpk : ScriptPublicKey) :
    (store.recordTransfer tick tokenId score fromSpk toSpk).Rooted registered :=
  @insert registered store _ rooted (.withSeq score tick tokenId 0) present rfl .inr
    isSome_insert isSome_insert

theorem cleared (rooted : store.Rooted registered) {threshold : ℕ}
    (cleared : OwnersCleared threshold store new)
    (survives : ∀ {tick score}, score < threshold → registered tick score →
      registered' tick score) : new.Rooted registered' := by
  -- a change that is none of the affected ones stays
  have kept {change} (stored : (store.ownershipChanges.get change).isSome)
      (unaffected : change ∉ affectedKeys store threshold) :
      (new.ownershipChanges.get change).isSome := by
    refine cleared.changes.2 ⟨stored, not_le.1 fun high => unaffected ?_⟩
    exact mem_affectedKeys.2 ⟨stored, high⟩
  have history {key} (held : (new.ownershipHistory.get key).isSome) :
      ∃ change, (new.ownershipChanges.get change).isSome ∧ change.historyKey = key := by
    obtain ⟨held, spared⟩ := cleared.history held
    obtain ⟨change, stored, same⟩ := rooted.history held
    exact ⟨change, kept stored fun affected => spared change affected same, same⟩
  constructor
  case changes =>
    intro key stored
    obtain ⟨stored, low⟩ := cleared.changes.1 stored
    exact survives low (rooted.changes stored)
  case mints =>
    intro key minted
    obtain ⟨minted, spared⟩ := cleared.mints minted
    obtain ⟨change, stored, same⟩ := rooted.mints minted
    exact ⟨change, kept stored fun affected => spared change affected same, same⟩
  case history => exact history
  case owned =>
    intro token owned
    rcases cleared.owned owned with ⟨reversed, held⟩ | ⟨owned, spared⟩
    · obtain ⟨change, stored, same⟩ := history held
      injection same with sameTick sameId
      exact ⟨change, stored, by rw [sameTick, sameId]⟩
    · obtain ⟨change, stored, same⟩ := rooted.owned owned
      exact ⟨change, kept stored fun affected => spared change affected same, same⟩

end OwnershipStore.Rooted

/-! Whole databases. -/

/-- The collection was deployed by a score, and by that of a transaction if it is indexed. -/
structure RegisteredFor (registered : Tick → ℕ → Prop) (index : Partition TransactionId ℕ)
    (tick : Tick) (score : ℕ) (txId : TransactionId) : Prop where
  scored : registered tick score
  indexed : ∀ {indexScore}, index.get txId = some indexScore → registered tick indexScore

/-- Every row about a token belongs to a collection that was deployed by the time of the row. -/
structure Rooted (kaspa : Kaspa) (db : Db) : Prop extends db.Deployed kaspa where
  fitting : db.toChainStore.Fitting kaspa
  owners : db.toOwnershipStore.Rooted (db.RegisteredBy kaspa)
  listed : ∀ {token listing}, db.listings.get token = some listing →
    RegisteredFor (db.RegisteredBy kaspa) db.txIdToOpscore token.tick listing.opScore
      listing.listingTxId
  sent : ∀ {score common info},
    db.operationHistory.get score = some ⟨⟨common, .send info⟩, none⟩ →
      RegisteredFor (db.RegisteredBy kaspa) db.txIdToOpscore common.tick score
        info.listingUtxoTxid

namespace Rooted

variable {kaspa : Kaspa} {db db' : Db} {tick : Tick}

/-- The collection of an owned token is registered. -/
theorem registered (rooted : Rooted kaspa db) {token : OwnershipKey}
    (owned : (db.currentOwnership.get token).isSome) :
    (db.collectionRegistry.get token.tick).isSome := by
  obtain ⟨change, stored, same⟩ := rooted.owners.owned owned
  obtain ⟨entry, found, _⟩ := rooted.owners.changes stored
  rw [← same]
  exact Option.isSome_iff_exists.2 ⟨entry, found⟩

/-- A tick that is not registered has no mints. -/
theorem unminted (rooted : Rooted kaspa db) (free : db.collectionRegistry.get tick = none)
    (reversedSeq tokenId score : ℕ) :
    db.mintHistory.get ⟨tick, reversedSeq, tokenId, score⟩ = none := by
  rw [← Option.not_isSome_iff_eq_none]
  intro minted
  obtain ⟨change, stored, same⟩ := rooted.owners.mints minted
  obtain ⟨entry, found, _⟩ := rooted.owners.changes stored
  have sameTick : change.tick = tick := congrArg MintHistoryKey.tick same
  rw [sameTick, free] at found
  cases found

section Operation

variable {context : ContextOperation}

/-- The database once the operation is in the index of the log. -/
def Indexed (kaspa : Kaspa) (context : ContextOperation) (db : Db) : Prop :=
  db.toChainStore.EndsAt (context.txScore / kaspa.blockCapacity) ∧ Rooted kaspa { db with
    txIdToOpscore := db.txIdToOpscore.insert context.operation.common.txId context.txScore }

theorem indexed (rooted : Rooted kaspa db)
    (ends : db.toChainStore.EndsAt (context.txScore / kaspa.blockCapacity)) :
    Indexed kaspa context db := by
  -- what the index now says of the transaction is the score of the operation
  have now {tick score txId}
      (registered : RegisteredFor (db.RegisteredBy kaspa) db.txIdToOpscore tick score txId) :
      RegisteredFor (db.RegisteredBy kaspa)
        (db.txIdToOpscore.insert context.operation.common.txId context.txScore) tick score
        txId := by
    refine ⟨registered.scored, fun {indexScore} found => ?_⟩
    rw [Partition.get_insert] at found
    split at found
    · cases found
      obtain ⟨entry, present, _⟩ := registered.scored
      exact rooted.registeredBy ends (Option.isSome_iff_exists.2 ⟨entry, present⟩)
    · exact registered.indexed found
  exact ⟨ends, ⟨rooted.deployments, rooted.stored⟩, rooted.fitting, rooted.owners,
    fun found => now (rooted.listed found), fun logged => now (rooted.sent logged)⟩

theorem writesKeep (kaspa : Kaspa) (context : ContextOperation) :
    WritesKeep context (Indexed kaspa context) where
  registers := by
    intro db info _ free kept
    obtain ⟨ends, rooted⟩ := kept
    have later {tick score} (registered : db.RegisteredBy kaspa tick score) :
        CollectionStore.RegisteredBy kaspa
          ⟨db.collectionDeployments.insert ⟨context.txScore, context.operation.common.tick⟩
              ⟨info, context.operation.common⟩,
            db.collectionRegistry.insert context.operation.common.tick
              ⟨context.txScore, info, context.operation.common⟩⟩ tick score := by
      obtain ⟨entry, found, le⟩ := registered
      refine ⟨entry, ?_, le⟩
      rw [Partition.get_insert_of_ne]
      · exact found
      · rintro rfl
        rw [free] at found
        cases found
    exact ⟨ends, rooted.toDeployed.register ends free, rooted.fitting, rooted.owners.mono later,
      fun found => ⟨later (rooted.listed found).scored,
        fun indexed => later ((rooted.listed found).indexed indexed)⟩,
      fun logged => ⟨later (rooted.sent logged).scored,
        fun indexed => later ((rooted.sent logged).indexed indexed)⟩⟩
  mints := by
    intro db ranges seq tokenId toSpk registered kept
    obtain ⟨ends, rooted⟩ := kept
    exact ⟨ends, ⟨rooted.deployments, rooted.stored⟩, rooted.fitting,
      rooted.owners.recordMint (rooted.registeredBy ends registered) seq toSpk, rooted.listed,
      rooted.sent⟩
  transfers := by
    intro db tokenId fromSpk toSpk known kept
    obtain ⟨ends, rooted⟩ := kept
    have registered : (db.collectionRegistry.get context.operation.common.tick).isSome := by
      rcases known with owned | listed
      · exact rooted.registered owned
      · obtain ⟨listing, found⟩ := Option.isSome_iff_exists.1 listed
        obtain ⟨entry, found, _⟩ := (rooted.listed found).scored
        exact Option.isSome_iff_exists.2 ⟨entry, found⟩
    exact ⟨ends, ⟨rooted.deployments, rooted.stored⟩, rooted.fitting,
      rooted.owners.recordTransfer (rooted.registeredBy ends registered) fromSpk toSpk,
      rooted.listed, rooted.sent⟩
  discounts := by
    intro db scoreToDiscount vip kept
    obtain ⟨ends, rooted⟩ := kept
    exact ⟨ends, ⟨rooted.deployments, rooted.stored⟩, rooted.fitting, rooted.owners,
      rooted.listed, rooted.sent⟩
  lists := by
    intro db info listing _ registered sameTx sameScore kept
    obtain ⟨ends, rooted⟩ := kept
    refine ⟨ends, ⟨rooted.deployments, rooted.stored⟩, rooted.fitting, rooted.owners, ?_,
      rooted.sent⟩
    intro token found listed
    simp only [Db.insertListing, Partition.get_insert] at listed
    split at listed
    · rename_i same
      cases listed
      have now := rooted.registeredBy ends registered
      rw [← same, sameTx, sameScore]
      refine ⟨now, fun {indexScore} indexed => ?_⟩
      rw [Partition.get_insert_self, Option.some.injEq] at indexed
      rw [← indexed]
      exact now
    · exact rooted.listed listed
  delists := by
    intro db tokenId seller kept
    obtain ⟨ends, rooted⟩ := kept
    refine ⟨ends, ⟨rooted.deployments, rooted.stored⟩, rooted.fitting, rooted.owners, ?_,
      rooted.sent⟩
    intro token listing found
    simp only [Db.removeListing, Partition.get_erase] at found
    split at found
    · cases found
    · exact rooted.listed found

theorem operation (rooted : Rooted kaspa db)
    (ends : db.toChainStore.EndsAt (context.txScore / kaspa.blockCapacity))
    {checked : CheckedOperation} (success : applyOperation kaspa db context = .ok (db', checked)) :
    Rooted kaspa (db'.recordOperation context.txScore checked) := by
  have before := rooted.indexed ends
  obtain ⟨ends', written⟩ := (writesKeep kaspa context).applyOperation success before
  rw [Db.recordOperation, applyOperation_common success]
  refine ⟨⟨written.deployments, written.stored⟩, written.fitting, written.owners, written.listed,
    fun {score common info} logged => ?_⟩
  simp only [Partition.get_insert] at logged
  split at logged
  · rename_i same
    subst same
    cases logged
    obtain ⟨sameOperation, sameCollections, listing, found, spends⟩ :=
      applyOperation_sent success rfl rfl
    have listed := before.2.listed found
    obtain ⟨entry, present, _⟩ := listed.scored
    have now := before.2.registeredBy ends (Option.isSome_iff_exists.2 ⟨entry, present⟩)
    have index := congrArg LogStore.txIdToOpscore (applyOperation_log success)
    rw [← sameOperation] at listed now ⊢
    rw [index, spends, sameCollections]
    exact ⟨now, listed.indexed⟩
  · exact written.sent logged

end Operation

theorem removal (rooted : Rooted kaspa db) {removed : List RpcHash} {forced : Option ℕ}
    {diff : StatsDiffs} (fits : ∀ score, forced = some score → kaspa.Fits score)
    (success : processRemoval kaspa db removed forced = .ok (db', diff)) : Rooted kaspa db' := by
  rcases processRemoval_cleared success with same | ⟨minBlueScore, found, cleared⟩
  · rw [same]
    exact rooted
  · have chain := processRemoval_chain success
    obtain ⟨fitting, cut⟩ := rooted.fitting.identified removed fits
    rw [(cut minBlueScore found).threshold_eq] at cleared
    have blocks := (db.toChainStore.identifyReorgBlocksAndDelete_blocks removed forced).1
      minBlueScore found
    rw [← chain] at fitting blocks
    have survives {low tick score} := @rooted.survives _ _ db' tick score minBlueScore cleared low
    refine ⟨rooted.toDeployed.cleared cleared fun {block} isStored low => ?_, fitting,
      rooted.owners.cleared cleared.toOwnersCleared fun low registered =>
        survives low registered registered, fun {token listing} listed => ?_,
      fun {score common info} logged => ?_⟩
    · rw [blocks]
      exact (Partition.isSome_get_below block.blueScore fun _ => rfl).2 ⟨isStored, low⟩
    · obtain ⟨low, listed⟩ := cleared.listings listed
      have registered : RegisteredFor (db.RegisteredBy kaspa) db.txIdToOpscore token.tick
          listing.opScore listing.listingTxId := by
        rcases listed with kept | ⟨score, common, info, logged, same, sameTx, indexed⟩
        · exact rooted.listed kept
        · have sent := rooted.sent logged
          rw [same, sameTx]
          exact ⟨sent.indexed indexed, sent.indexed⟩
      exact ⟨survives low registered.scored registered.scored, fun indexed =>
        survives low registered.scored (registered.indexed (cleared.index indexed))⟩
    · obtain ⟨logged, low⟩ := cleared.log logged
      have registered := rooted.sent logged
      exact ⟨survives low registered.scored registered.scored, fun indexed =>
        survives low registered.scored (registered.indexed (cleared.index indexed))⟩

theorem new (kaspa : Kaspa) : Rooted kaspa .new := by
  constructor
  case toDeployed => exact ⟨by simp [Db.new], by simp [Db.new]⟩
  case fitting => exact ⟨by simp [Db.new], by simp [Db.new]⟩
  case owners => exact ⟨by simp [Db.new], by simp [Db.new], by simp [Db.new], by simp [Db.new]⟩
  case listed => simp [Db.new]
  case sent => simp [Db.new]

theorem runKeeps (kaspa : Kaspa) : RunKeeps kaspa (fun _ _ => True)
    (fun _ _ forced => ∀ score, forced = some score → kaspa.Fits score) (fun _ => True)
    (Rooted kaspa) where
  accept := by
    intro db mergeset valid rooted
    refine ⟨⟨rooted.deployments, fun found => ?_⟩, rooted.fitting.accept valid, rooted.owners,
      rooted.listed, rooted.sent⟩
    obtain ⟨block, isStored, same⟩ := rooted.stored found
    exact ⟨block, ChainStore.stores_accept.2 (.inr isStored), same⟩
  operation := fun ends _ _ success rooted => rooted.operation ends success
  new := new kaspa
  promised := fun _ _ _ _ _ => trivial
  removal := fun fits success rooted => rooted.removal fits success
  bookkeeping := fun _ _ rooted => ⟨⟨rooted.deployments, rooted.stored⟩, rooted.fitting,
    rooted.owners, rooted.listed, rooted.sent⟩

end Rooted

/-! Databases in which operations are processed. -/

/-- A database of a run in which no forced rollback is to a blue score whose scores are cut off, or
one in the middle of a mergeset of such a run. Its additions may process forks. -/
abbrev FittingProcessing (kaspa : Kaspa) : Db → Prop :=
  Processing kaspa (fun _ _ => True) fun _ _ forced =>
    ∀ score, forced = some score → kaspa.Fits score

section

variable {kaspa : Kaspa} {db : Db}

/-- The collection of an owned token is registered. -/
theorem Processing.registered
    (processing : UnforkedProcessing kaspa db ∨ FittingProcessing kaspa db)
    {token : OwnershipKey} (owned : (db.currentOwnership.get token).isSome) :
    (db.collectionRegistry.get token.tick).isSome := by
  cases processing with
  | inl processing =>
      obtain ⟨bound, replay⟩ := processing.replay
      rw [Option.isSome_iff_ne_none]
      intro free
      obtain ⟨value, found⟩ := Option.isSome_iff_exists.1 owned
      have member := Applied.mem_of_owned replay.wf (replay.wf.undeployed free 0 0) found
      cases member
  | inr processing => exact ((Rooted.runKeeps kaspa).processing processing).registered owned

/-- A tick that is not registered has no mints. -/
theorem Processing.unminted (processing : UnforkedProcessing kaspa db ∨ FittingProcessing kaspa db)
    {tick : Tick} (free : db.collectionRegistry.get tick = none) :
    Issued db.mintHistory tick [] := by
  cases processing with
  | inl processing =>
      obtain ⟨bound, replay⟩ := processing.replay
      exact (replay.wf.undeployed free 0 0).issued
  | inr processing =>
      have rooted := (Rooted.runKeeps kaspa).processing processing
      exact Issued.nil_iff.2 fun reversedSeq tokenId score =>
        rooted.unminted free reversedSeq tokenId score

end

end Krc721
