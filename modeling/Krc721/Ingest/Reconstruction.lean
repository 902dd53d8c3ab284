import Mathlib.Data.List.Sort
import Krc721.Analyzer.Detect
import Krc721.Store.Fill

/-! How the syncer rebuilds the mergeset of a chain block. The node gives the accepted transactions
in one list and the merged blocks as hashes; the blocks are fetched for their blue work and put in
the order of the consensus, and each transaction goes to its block. -/

set_option autoImplicit false

namespace Krc721

open OrderedStore SymbolStream

def ORIGIN_HASH_BYTE : ℕ := 0xfe

/-- `RpcHash::as_bytes`. -/
def hashBytes (hash : RpcHash) : List ℕ := toBeBytes 32 hash

def isOriginHash (hash : RpcHash) : Bool :=
  (hashBytes hash).all fun byte => byte == ORIGIN_HASH_BYTE

/-- The `Display` instance of a hash. -/
def hashText (hash : RpcHash) : String := hexString (hashBytes hash)

inductive SyncError where
  | custom (message : String)
  | rpc (message : String)
deriving DecidableEq, Inhabited

/-! What the node sends. -/

structure RpcHeader where
  blueWork : ℕ
  timestamp : ℕ
deriving DecidableEq, Inhabited

structure RpcBlockVerboseData where
  selectedParentHash : RpcHash
  mergeSetBluesHashes : List RpcHash
  mergeSetRedsHashes : List RpcHash
deriving DecidableEq, Inhabited

structure RpcBlock where
  header : RpcHeader
  verboseData : Option RpcBlockVerboseData
deriving DecidableEq, Inhabited

structure RpcOptionalTransactionVerboseData where
  blockHash : Option RpcHash
deriving DecidableEq, Inhabited

/-- A transaction: the amounts of its inputs and outputs as far as they are given, and what
`Transaction::try_from` makes of it. -/
structure RpcOptionalTransaction where
  inputAmounts : List (Option ℕ)
  outputValues : List (Option ℕ)
  converted : Option Transaction
  verboseData : Option RpcOptionalTransactionVerboseData
deriving DecidableEq, Inhabited

structure RpcOptionalHeader where
  hash : Option RpcHash
  blueScore : Option ℕ
  daaScore : Option ℕ
deriving DecidableEq, Inhabited

structure RpcChainBlockAcceptedTransactions where
  chainBlockHeader : RpcOptionalHeader
  acceptedTransactions : List RpcOptionalTransaction
deriving DecidableEq, Inhabited

/-! What the syncer makes of it. -/

structure ReconstructedMergedBlockAcceptance where
  hash : RpcHash
  timestamp : ℕ
  transactions : List RpcOptionalTransaction
deriving DecidableEq, Inhabited

structure ReconstructedChainBlockAcceptance where
  acceptedChainBlockHash : RpcHash
  acceptingBlockBlueScore : ℕ
  acceptingBlockDaaScore : ℕ
  mergedBlocks : List ReconstructedMergedBlockAcceptance
deriving DecidableEq, Inhabited

/-- `ok_or_else` with a custom error. -/
def orCustom {Value : Type} (message : String) : Option Value → Except SyncError Value
  | some value => .ok value
  | none => .error (.custom message)

/-- `get_block` of the node. -/
abbrev Bridge : Type := RpcHash → Bool → Except SyncError RpcBlock

abbrev BlockCache : Type := OrderedStore.Partition RpcHash RpcBlock

def getCachedBlock (bridge : Bridge) (blockCache : BlockCache) (hash : RpcHash)
    (includeTransactions : Bool) : Except SyncError (RpcBlock × BlockCache) :=
  match blockCache.get hash with
  | some block => .ok (block, blockCache)
  | none =>
      match bridge hash includeTransactions with
      | .error error => .error error
      | .ok block => .ok (block, blockCache.insert hash block)

/-- A merged block that has yet to be sorted. -/
structure SortableBlock where
  hash : RpcHash
  blueWork : ℕ
  timestamp : ℕ
deriving DecidableEq, Inhabited

/-- The order of `sortable`. -/
def SortableBlock.Before (left right : SortableBlock) : Prop :=
  left.blueWork < right.blueWork ∨ left.blueWork = right.blueWork ∧ left.hash ≤ right.hash

instance : DecidableRel SortableBlock.Before := fun left right =>
  inferInstanceAs (Decidable (left.blueWork < right.blueWork ∨
    left.blueWork = right.blueWork ∧ left.hash ≤ right.hash))

structure Merging where
  blockCache : BlockCache
  knownMergedBlocks : OrderedStore.Partition RpcHash Unit
  sortable : List SortableBlock

/-- What both loops do with the hash of a merged block: nothing if it is known. -/
def Merging.add (bridge : Bridge) (merging : Merging) (hash : RpcHash) :
    Except SyncError Merging :=
  if (merging.knownMergedBlocks.get hash).isSome then .ok merging
  else
    let knownMergedBlocks := merging.knownMergedBlocks.insert hash ()
    if isOriginHash hash then
      .ok { merging with knownMergedBlocks, sortable := merging.sortable ++ [⟨hash, 0, 0⟩] }
    else
      match getCachedBlock bridge merging.blockCache hash false with
      | .error error => .error error
      | .ok (block, blockCache) =>
          .ok ⟨blockCache, knownMergedBlocks, merging.sortable ++
            [⟨hash, block.header.blueWork, block.header.timestamp⟩]⟩

/-- The hash of the block that a transaction was accepted from. -/
def acceptedFrom (acceptedChainBlockHash : RpcHash) (rpcTx : RpcOptionalTransaction) :
    Except SyncError RpcHash := do
  let verboseData ← orCustom ("accepted transaction in chain block " ++
    hashText acceptedChainBlockHash ++ " is missing verbose data") rpcTx.verboseData
  orCustom ("accepted transaction in chain block " ++ hashText acceptedChainBlockHash ++
    " is missing verbose block hash") verboseData.blockHash

/-- The loop over the blues and the reds. -/
def addListed (bridge : Bridge) : List RpcHash → Merging → Except SyncError Merging
  | [], merging => .ok merging
  | hash :: hashes, merging => do
      let merging ← merging.add bridge hash
      addListed bridge hashes merging

/-- The loop that adds the blocks that only transactions name. -/
def addReferenced (bridge : Bridge) (acceptedChainBlockHash : RpcHash) :
    List RpcOptionalTransaction → Merging → Except SyncError Merging
  | [], merging => .ok merging
  | rpcTx :: rest, merging => do
      let blockHash ← acceptedFrom acceptedChainBlockHash rpcTx
      let merging ← merging.add bridge blockHash
      addReferenced bridge acceptedChainBlockHash rest merging

/-- The loop that pushes each transaction to its block. -/
def pushTransactions (acceptedChainBlockHash : RpcHash)
    (blockIndexes : OrderedStore.Partition RpcHash ℕ) :
    List RpcOptionalTransaction → List ReconstructedMergedBlockAcceptance →
      Except SyncError (List ReconstructedMergedBlockAcceptance)
  | [], mergedBlocks => .ok mergedBlocks
  | rpcTx :: rest, mergedBlocks => do
      let blockHash ← acceptedFrom acceptedChainBlockHash rpcTx
      let index ← orCustom ("accepted transaction from block " ++ hashText blockHash ++
        " was not found in reconstructed mergeset for " ++ hashText acceptedChainBlockHash)
        (blockIndexes.get blockHash)
      pushTransactions acceptedChainBlockHash blockIndexes rest
        (mergedBlocks.modify index fun block =>
          { block with transactions := block.transactions ++ [rpcTx] })

def blockIndexesOf (mergedBlocks : List ReconstructedMergedBlockAcceptance) :
    OrderedStore.Partition RpcHash ℕ :=
  (∅ : OrderedStore.Partition RpcHash ℕ).insertAll
    (mergedBlocks.zipIdx.map fun row => (row.1.hash, row.2))

/-- The hashes of the blues and the reds that the loop goes through. -/
def RpcBlockVerboseData.listed (verboseData : RpcBlockVerboseData) : List RpcHash :=
  (verboseData.mergeSetBluesHashes.filter fun hash => hash ≠ verboseData.selectedParentHash) ++
    verboseData.mergeSetRedsHashes

/-- The timestamp of the selected parent; the origin has none. -/
def selectedParentTimestamp (bridge : Bridge) (blockCache : BlockCache) (hash : RpcHash) :
    Except SyncError (ℕ × BlockCache) :=
  if isOriginHash hash then .ok (0, blockCache)
  else
    match getCachedBlock bridge blockCache hash false with
    | .error error => .error error
    | .ok (block, blockCache) => .ok (block.header.timestamp, blockCache)

def reconstructChainBlockAcceptance (bridge : Bridge) (blockCache : BlockCache)
    (accepted : RpcChainBlockAcceptedTransactions) :
    Except SyncError (ReconstructedChainBlockAcceptance × BlockCache) := do
  let acceptedChainBlockHash ← orCustom "missing accepted chain block hash in V2 response"
    accepted.chainBlockHeader.hash
  let acceptingBlockBlueScore ← orCustom
    "missing accepted chain block blue score in V2 response" accepted.chainBlockHeader.blueScore
  let acceptingBlockDaaScore ← orCustom
    "missing accepted chain block DAA score in V2 response" accepted.chainBlockHeader.daaScore
  let (acceptingBlock, blockCache) ←
    getCachedBlock bridge blockCache acceptedChainBlockHash false
  let verboseData ← orCustom ("missing verbose data for accepted chain block " ++
    hashText acceptedChainBlockHash) acceptingBlock.verboseData
  let selectedParentHash := verboseData.selectedParentHash
  let (timestamp, blockCache) ← selectedParentTimestamp bridge blockCache selectedParentHash
  let merging ← addListed bridge verboseData.listed
    ⟨blockCache, (∅ : OrderedStore.Partition RpcHash Unit).insert selectedParentHash (), []⟩
  let merging ← addReferenced bridge acceptedChainBlockHash accepted.acceptedTransactions merging
  let sortable := merging.sortable.insertionSort SortableBlock.Before
  let mergedBlocks : List ReconstructedMergedBlockAcceptance :=
    ⟨selectedParentHash, timestamp, []⟩ :: sortable.map fun block =>
      ⟨block.hash, block.timestamp, []⟩
  let mergedBlocks ← pushTransactions acceptedChainBlockHash (blockIndexesOf mergedBlocks)
    accepted.acceptedTransactions mergedBlocks
  .ok (⟨acceptedChainBlockHash, acceptingBlockBlueScore, acceptingBlockDaaScore, mergedBlocks⟩,
    merging.blockCache)

/-! The mergesets for the processor. -/

/-- Sums are of type `u64` and wrap around. -/
def rpcTransactionFee (rpcTx : RpcOptionalTransaction) : ℕ :=
  (rpcTx.inputAmounts.filterMap id).sum % 2 ^ 64 -
    (rpcTx.outputValues.filterMap id).sum % 2 ^ 64

def fromLeBytes : List ℕ → ℕ
  | [] => 0
  | byte :: bytes => byte + 256 * fromLeBytes bytes

def addBlockHash (entropy : ℕ) (hash : RpcHash) : ℕ :=
  ((hashBytes hash).toChunks 8).foldl (fun accum item => accum ^^^ fromLeBytes item) entropy

variable (crates : Crates) (analyzer : Analyzer)

/-- The operation of a transaction. An error drops it, a panic ends everything. -/
def mergesetOperation (acceptingBlockDaaScore blockIndexWithinMergeset : ℕ)
    (mergedBlock : ReconstructedMergedBlockAcceptance) (indexWithinMergedBlock : ℕ)
    (rpcTx : RpcOptionalTransaction) : Except Failure (Option MergesetOperation) :=
  match rpcTx.converted with
  | none => .ok none
  | some tx =>
      match analyzer.detectKrc721 crates
          ⟨tx, rpcTransactionFee rpcTx, mergedBlock.timestamp, acceptingBlockDaaScore⟩ with
      | .error .panicked => .error .panicked
      | .error (.error _) => .ok none
      | .ok operation => .ok (operation.map fun operation =>
          ⟨blockIndexWithinMergeset, indexWithinMergedBlock, operation⟩)

/-- `process_reconstructed_acceptance_data` on one chain block. -/
def processReconstructed (accepted : ReconstructedChainBlockAcceptance) :
    Except Failure Mergeset := do
  let transactions := accepted.mergedBlocks.zipIdx.flatMap fun (mergedBlock, blockIndex) =>
    mergedBlock.transactions.zipIdx.map fun (rpcTx, index) =>
      (blockIndex, mergedBlock, index, rpcTx)
  let operations ← transactions.mapM fun (blockIndex, mergedBlock, index, rpcTx) =>
    mergesetOperation crates analyzer accepted.acceptingBlockDaaScore blockIndex mergedBlock index
      rpcTx
  .ok {
    operations := operations.filterMap id
    entropy := (accepted.mergedBlocks.map fun block => block.hash).foldl addBlockHash 0
    blueScore := accepted.acceptingBlockBlueScore
    acceptedChainBlockHash := accepted.acceptedChainBlockHash }

/-- The loop over the chain blocks of a response. -/
def reconstructAll (bridge : Bridge) : List RpcChainBlockAcceptedTransactions → BlockCache →
    Except SyncError (List ReconstructedChainBlockAcceptance)
  | [], _ => .ok []
  | accepted :: rest, blockCache => do
      let (reconstructed, blockCache) ← reconstructChainBlockAcceptance bridge blockCache accepted
      let others ← reconstructAll bridge rest blockCache
      .ok (reconstructed :: others)

def reconstructAndProcessAcceptanceData (bridge : Bridge)
    (chainBlockAcceptedTransactions : List RpcChainBlockAcceptedTransactions) :
    Except SyncError (Except Failure (List Mergeset)) := do
  let reconstructed ← reconstructAll bridge chainBlockAcceptedTransactions ∅
  .ok (reconstructed.mapM (processReconstructed crates analyzer))

/-! The blocks, wherever they come from. -/

/-- What `get_cached_block` answers. -/
def lookup (bridge : Bridge) (blockCache : BlockCache) (hash : RpcHash) :
    Except SyncError RpcBlock :=
  match blockCache.get hash with
  | some block => .ok block
  | none => bridge hash false

/-- The merged block as it is sorted. -/
def entryOf (blocks : RpcHash → Except SyncError RpcBlock) (hash : RpcHash) :
    Except SyncError SortableBlock :=
  if isOriginHash hash then .ok ⟨hash, 0, 0⟩
  else
    match blocks hash with
    | .error error => .error error
    | .ok block => .ok ⟨hash, block.header.blueWork, block.header.timestamp⟩

/-- The hash of the block of a transaction, if it is given. -/
def RpcOptionalTransaction.fromHash (rpcTx : RpcOptionalTransaction) : Option RpcHash :=
  rpcTx.verboseData.bind RpcOptionalTransactionVerboseData.blockHash

section

variable {bridge : Bridge} {blockCache blockCache' : BlockCache} {hash key parent : RpcHash}
variable {blocks blocks' : RpcHash → Except SyncError RpcBlock} {block : RpcBlock}
variable {merging merging' : Merging} {hashes hashes' listed : List RpcHash}
variable {entry : SortableBlock} {acceptedChainBlockHash : RpcHash}
variable {rpcTx : RpcOptionalTransaction} {transactions : List RpcOptionalTransaction}

theorem orCustom_eq_ok {Value : Type} {message : String} {source : Option Value} {value : Value} :
    orCustom message source = .ok value ↔ source = some value := by
  cases source <;> simp [orCustom]

theorem acceptedFrom_eq_ok :
    acceptedFrom acceptedChainBlockHash rpcTx = .ok hash ↔ rpcTx.fromHash = some hash := by
  simp only [acceptedFrom, bind_eq_ok, orCustom_eq_ok, RpcOptionalTransaction.fromHash,
    Option.bind_eq_some_iff]

/-- A block is fetched once, and every later look into the cache finds it. -/
theorem lookup_of_getCachedBlock
    (fetched : getCachedBlock bridge blockCache hash false = .ok (block, blockCache')) :
    lookup bridge blockCache hash = .ok block ∧
      lookup bridge blockCache' = lookup bridge blockCache := by
  unfold getCachedBlock at fetched
  cases cached : blockCache.get hash with
  | some stored =>
      rw [cached] at fetched
      cases fetched
      exact ⟨by rw [lookup, cached], rfl⟩
  | none =>
      rw [cached] at fetched
      dsimp only at fetched
      split at fetched
      · cases fetched
      · rename_i answered
        cases fetched
        have found : lookup bridge blockCache hash = .ok block := by rw [lookup, cached, answered]
        refine ⟨found, funext fun other => ?_⟩
        by_cases same : hash = other
        · subst same
          rw [found, lookup, Partition.get_insert_self]
        · rw [lookup, Partition.get_insert_of_ne _ _ same]
          rfl

theorem exists_getCachedBlock (found : lookup bridge blockCache hash = .ok block) :
    ∃ blockCache', getCachedBlock bridge blockCache hash false = .ok (block, blockCache') := by
  unfold lookup at found
  unfold getCachedBlock
  split at found
  · cases found
    exact ⟨_, rfl⟩
  · rw [found]
    exact ⟨_, rfl⟩

/-- The hashes in front have been gone through: each of them is known, and the blocks other than the
selected parent wait to be sorted. -/
structure Merging.Collected (bridge : Bridge) (blocks : RpcHash → Except SyncError RpcBlock)
    (parent : RpcHash) (hashes : List RpcHash) (merging : Merging) : Prop where
  answers : lookup bridge merging.blockCache = blocks
  known : ∀ key, (merging.knownMergedBlocks.get key).isSome ↔ key = parent ∨ key ∈ hashes
  entries : ∀ entry ∈ merging.sortable, entryOf blocks entry.hash = .ok entry
  keys : ∀ key, key ∈ merging.sortable.map SortableBlock.hash ↔ key ∈ hashes ∧ key ≠ parent
  distinct : (merging.sortable.map SortableBlock.hash).Nodup

theorem hash_of_entryOf (built : entryOf blocks hash = .ok entry) : entry.hash = hash := by
  unfold entryOf at built
  split at built
  · cases built
    rfl
  · split at built
    · cases built
    · cases built
      rfl

namespace Merging

theorem add_of_known (known : (merging.knownMergedBlocks.get hash).isSome = true) :
    merging.add bridge hash = .ok merging := by
  rw [add, if_pos known]

/-- What adding a hash that is not known does. -/
theorem exists_entry_of_add (unknown : (merging.knownMergedBlocks.get hash).isSome = false)
    (added : merging.add bridge hash = .ok merging') :
    ∃ entry, entryOf (lookup bridge merging.blockCache) hash = .ok entry ∧
      lookup bridge merging'.blockCache = lookup bridge merging.blockCache ∧
      merging'.knownMergedBlocks = merging.knownMergedBlocks.insert hash () ∧
      merging'.sortable = merging.sortable ++ [entry] := by
  rw [add, unknown, if_neg Bool.false_ne_true] at added
  dsimp only at added
  unfold entryOf
  split at added
  · rename_i origin
    cases added
    exact ⟨_, if_pos origin, rfl, rfl, rfl⟩
  · rename_i notOrigin
    rw [if_neg notOrigin]
    split at added
    · cases added
    · rename_i block blockCache fetched
      obtain ⟨found, kept⟩ := lookup_of_getCachedBlock fetched
      cases added
      rw [found]
      exact ⟨_, rfl, kept, rfl, rfl⟩

theorem exists_add (built : entryOf (lookup bridge merging.blockCache) hash = .ok entry) :
    ∃ merging', merging.add bridge hash = .ok merging' := by
  unfold add
  split
  · exact ⟨_, rfl⟩
  · dsimp only
    split
    · exact ⟨_, rfl⟩
    · rename_i notOrigin
      rw [entryOf, if_neg notOrigin] at built
      split at built
      · cases built
      · rename_i block found
        obtain ⟨blockCache, fetched⟩ := exists_getCachedBlock found
        rw [fetched]
        exact ⟨_, rfl⟩

theorem Collected.add (collected : Collected bridge blocks parent hashes merging)
    (added : merging.add bridge hash = .ok merging') :
    Collected bridge blocks parent (hashes ++ [hash]) merging' := by
  cases unknown : (merging.knownMergedBlocks.get hash).isSome with
  | true =>
      rw [add_of_known unknown] at added
      cases added
      have before := (collected.known hash).1 unknown
      refine ⟨collected.answers, fun key => ?_, collected.entries, fun key => ?_,
        collected.distinct⟩
      · rw [collected.known, List.mem_append, List.mem_singleton]
        grind
      · rw [collected.keys, List.mem_append, List.mem_singleton]
        grind
  | false =>
      obtain ⟨entry, built, answers, known, sortable⟩ := exists_entry_of_add unknown added
      have sameHash := hash_of_entryOf built
      rw [collected.answers] at built answers
      have fresh : ¬ (hash = parent ∨ hash ∈ hashes) := by
        rw [← collected.known, unknown]
        decide
      constructor
      case answers => exact answers
      case known =>
        intro key
        rw [known, Partition.get_insert, List.mem_append, List.mem_singleton]
        split
        · rename_i same
          simp [same]
        · rename_i different
          rw [collected.known]
          simp [Ne.symm different]
      case entries =>
        intro other member
        rw [sortable, List.mem_append, List.mem_singleton] at member
        cases member with
        | inl before => exact collected.entries other before
        | inr now => rw [now, sameHash, built]
      case keys =>
        intro key
        rw [sortable, List.map_append, List.mem_append, collected.keys, List.map_singleton,
          List.mem_singleton, List.mem_append, List.mem_singleton, sameHash]
        grind
      case distinct =>
        rw [sortable, List.map_append, List.map_singleton, sameHash]
        refine List.Nodup.append collected.distinct (List.nodup_singleton _) ?_
        rw [List.disjoint_singleton, collected.keys]
        exact fun member => fresh (.inr member.1)

/-- The loop over the blues and the reds, and the loop over the transactions. -/
theorem Collected.addListed (collected : Collected bridge blocks parent hashes merging)
    (added : addListed bridge listed merging = .ok merging') :
    Collected bridge blocks parent (hashes ++ listed) merging' := by
  induction listed generalizing hashes merging with
  | nil =>
      cases added
      rwa [List.append_nil]
  | cons hash listed ih =>
      rw [Krc721.addListed, bind_eq_ok] at added
      obtain ⟨next, first, others⟩ := added
      have collected := ih (collected.add first) others
      rwa [List.append_assoc, List.singleton_append] at collected

theorem Collected.exists_addListed (collected : Collected bridge blocks parent hashes merging)
    (built : ∀ hash ∈ listed, hash ≠ parent → ∃ entry, entryOf blocks hash = .ok entry) :
    ∃ merging', Krc721.addListed bridge listed merging = .ok merging' := by
  induction listed generalizing hashes merging with
  | nil => exact ⟨merging, rfl⟩
  | cons hash listed ih =>
      obtain ⟨first, others⟩ := List.forall_mem_cons.1 built
      have added : ∃ next, merging.add bridge hash = .ok next := by
        by_cases isParent : hash = parent
        · exact ⟨_, add_of_known ((collected.known hash).2 (.inl isParent))⟩
        · obtain ⟨entry, found⟩ := first isParent
          rw [← collected.answers] at found
          exact exists_add found
      obtain ⟨next, added⟩ := added
      obtain ⟨merging', rest⟩ := ih (collected.add added) others
      exact ⟨merging', by rw [Krc721.addListed, bind_eq_ok]; exact ⟨next, added, rest⟩⟩

/-- Going through the transactions is going through the hashes of their blocks. -/
theorem addReferenced_eq_ok_iff :
    addReferenced bridge acceptedChainBlockHash transactions merging = .ok merging' ↔
      (∀ rpcTx ∈ transactions, rpcTx.fromHash.isSome) ∧
        Krc721.addListed bridge (transactions.filterMap RpcOptionalTransaction.fromHash) merging =
          .ok merging' := by
  induction transactions generalizing merging with
  | nil => simp [addReferenced, Krc721.addListed]
  | cons rpcTx transactions ih =>
      rw [addReferenced, bind_eq_ok, List.forall_mem_cons]
      cases given : rpcTx.fromHash with
      | none =>
          refine iff_of_false ?_ fun whole => Bool.noConfusion whole.1.1
          rintro ⟨hash, accepted, _⟩
          rw [acceptedFrom_eq_ok, given] at accepted
          cases accepted
      | some hash =>
          rw [List.filterMap_cons_some given, Krc721.addListed, bind_eq_ok]
          constructor
          · rintro ⟨hash', accepted, added⟩
            rw [acceptedFrom_eq_ok, given] at accepted
            cases accepted
            obtain ⟨next, first, others⟩ := bind_eq_ok.1 added
            obtain ⟨complete, rest⟩ := ih.1 others
            exact ⟨⟨rfl, complete⟩, next, first, rest⟩
          · rintro ⟨⟨_, complete⟩, next, first, rest⟩
            exact ⟨hash, acceptedFrom_eq_ok.2 given,
              bind_eq_ok.2 ⟨next, first, ih.2 ⟨complete, rest⟩⟩⟩

end Merging

/-! The order. -/

namespace SortableBlock

instance : IsTrans SortableBlock Before where
  trans first second third := by
    simp only [Before, RpcHash, Hash]
    omega

instance : Std.Total Before where
  total first second := by
    simp only [Before, RpcHash, Hash]
    omega

end SortableBlock

/-- The order between different blocks. -/
def SortableBlock.Earlier (left right : SortableBlock) : Prop :=
  left.blueWork < right.blueWork ∨ left.blueWork = right.blueWork ∧ left.hash < right.hash

/-- The blocks with these hashes, without the selected parent, in the order of the consensus. -/
structure Ordered (blocks : RpcHash → Except SyncError RpcBlock) (parent : RpcHash)
    (hashes : List RpcHash) (sorted : List SortableBlock) : Prop where
  entries : ∀ entry ∈ sorted, entryOf blocks entry.hash = .ok entry
  keys : ∀ key, key ∈ sorted.map SortableBlock.hash ↔ key ∈ hashes ∧ key ≠ parent
  distinct : (sorted.map SortableBlock.hash).Nodup
  earlier : sorted.Pairwise SortableBlock.Earlier

/-- Sorting puts the collected blocks in their order. -/
theorem Merging.Collected.ordered
    (collected : Merging.Collected bridge blocks parent hashes merging) :
    Ordered blocks parent hashes (merging.sortable.insertionSort SortableBlock.Before) := by
  have permuted := List.perm_insertionSort SortableBlock.Before merging.sortable
  have distinct : ((merging.sortable.insertionSort SortableBlock.Before).map
      SortableBlock.hash).Nodup := (permuted.map _).nodup_iff.2 collected.distinct
  constructor
  case entries =>
    intro entry member
    exact collected.entries entry (permuted.mem_iff.1 member)
  case keys =>
    intro key
    rw [(permuted.map SortableBlock.hash).mem_iff, collected.keys]
  case distinct => exact distinct
  case earlier =>
    have sorted := List.pairwise_insertionSort SortableBlock.Before merging.sortable
    refine (sorted.and (List.pairwise_map.1 distinct)).imp fun {left right} ordered => ?_
    obtain ⟨before, apart⟩ := ordered
    simp only [SortableBlock.Before, SortableBlock.Earlier, RpcHash, Hash] at *
    omega

theorem Ordered.unique {sorted sorted' : List SortableBlock}
    (ordered : Ordered blocks parent hashes sorted)
    (ordered' : Ordered blocks parent hashes sorted') : sorted = sorted' := by
  have mem_iff : ∀ {list : List SortableBlock} {entry : SortableBlock},
      Ordered blocks parent hashes list → (entry ∈ list ↔
        entryOf blocks entry.hash = .ok entry ∧ entry.hash ∈ hashes ∧ entry.hash ≠ parent) := by
    intro list entry given
    rw [← given.keys]
    constructor
    · intro member
      exact ⟨given.entries entry member, List.mem_map_of_mem member⟩
    · rintro ⟨built, inKeys⟩
      obtain ⟨other, member, sameHash⟩ := List.mem_map.1 inKeys
      have again := given.entries other member
      rw [sameHash, built] at again
      cases again
      exact member
  have permuted : sorted.Perm sorted' := by
    refine (List.perm_ext_iff_of_nodup (List.Nodup.of_map _ ordered.distinct)
      (List.Nodup.of_map _ ordered'.distinct)).2 fun entry => ?_
    rw [mem_iff ordered, mem_iff ordered']
  refine permuted.eq_of_pairwise ?_ ordered.earlier ordered'.earlier
  intro left right _ _ before after
  simp only [SortableBlock.Earlier, RpcHash, Hash] at before after
  omega

/-- The order depends on the set of the hashes and on what the blocks are. -/
theorem Ordered.transfer {sorted : List SortableBlock}
    (ordered : Ordered blocks parent hashes sorted)
    (members : ∀ hash, hash ≠ parent → (hash ∈ hashes ↔ hash ∈ hashes'))
    (answers : ∀ hash entry, entryOf blocks hash = .ok entry → entryOf blocks' hash = .ok entry) :
    Ordered blocks' parent hashes' sorted := by
  constructor
  case entries =>
    intro entry member
    exact answers _ _ (ordered.entries entry member)
  case keys =>
    intro key
    rw [ordered.keys]
    exact and_congr_left (members key)
  case distinct => exact ordered.distinct
  case earlier => exact ordered.earlier

/-! The transactions go to their blocks. -/

section

variable {mergedBlocks current : List ReconstructedMergedBlockAcceptance}
variable {result : List ReconstructedMergedBlockAcceptance}

theorem get_blockIndexesOf_eq_some_iff {index : ℕ}
    (distinct : (mergedBlocks.map ReconstructedMergedBlockAcceptance.hash).Nodup) :
    (blockIndexesOf mergedBlocks).get hash = some index ↔
      (mergedBlocks.map ReconstructedMergedBlockAcceptance.hash)[index]? = some hash := by
  have row : ∀ position : ℕ, (mergedBlocks.zipIdx.map fun row => (row.1.hash, row.2))[position]? =
      (mergedBlocks.map ReconstructedMergedBlockAcceptance.hash)[position]?.map
        fun hash => (hash, position) := by
    intro position
    rw [List.getElem?_map, List.getElem?_zipIdx, List.getElem?_map, Option.map_map, Option.map_map]
    simp [Function.comp_def]
  rw [blockIndexesOf, Partition.get_insertAll_eq_some_iff]
  simp only [row, Option.map_eq_some_iff]
  constructor
  · rintro ⟨position, ⟨hash', found, same⟩, -⟩
    cases same
    exact found
  · intro found
    refine ⟨index, ⟨hash, found, rfl⟩, ?_⟩
    rintro later _ after ⟨other, foundLater, rfl⟩ rfl
    have bound := (List.getElem?_eq_some_iff.1 found).1
    exact absurd ((List.getElem?_inj bound distinct).1 (found.trans foundLater.symm))
      (Nat.ne_of_lt after)

/-- A block with a transaction more, if the transaction is from it. -/
def ReconstructedMergedBlockAcceptance.push (rpcTx : RpcOptionalTransaction)
    (block : ReconstructedMergedBlockAcceptance) : ReconstructedMergedBlockAcceptance :=
  if rpcTx.fromHash = some block.hash then
    { block with transactions := block.transactions ++ [rpcTx] }
  else block

/-- A block with those of the transactions that are from it. -/
def ReconstructedMergedBlockAcceptance.pushAll (transactions : List RpcOptionalTransaction)
    (block : ReconstructedMergedBlockAcceptance) : ReconstructedMergedBlockAcceptance :=
  { block with
    transactions := block.transactions ++
      transactions.filter fun rpcTx => rpcTx.fromHash = some block.hash }

theorem pushAll_push {block : ReconstructedMergedBlockAcceptance} :
    (block.push rpcTx).pushAll transactions = block.pushAll (rpcTx :: transactions) := by
  simp only [ReconstructedMergedBlockAcceptance.push, ReconstructedMergedBlockAcceptance.pushAll,
    List.filter_cons]
  by_cases own : rpcTx.fromHash = some block.hash
  · simp [own]
  · simp [own]

theorem map_hash_push : (mergedBlocks.map (ReconstructedMergedBlockAcceptance.push rpcTx)).map
    ReconstructedMergedBlockAcceptance.hash =
      mergedBlocks.map ReconstructedMergedBlockAcceptance.hash := by
  rw [List.map_map]
  refine List.map_congr_left fun block _ => ?_
  rw [Function.comp_apply, ReconstructedMergedBlockAcceptance.push]
  split <;> rfl

theorem modify_eq_map {index : ℕ} (given : rpcTx.fromHash = some hash)
    (distinct : (current.map ReconstructedMergedBlockAcceptance.hash).Nodup)
    (position : (current.map ReconstructedMergedBlockAcceptance.hash)[index]? = some hash) :
    (current.modify index fun block =>
        { block with transactions := block.transactions ++ [rpcTx] }) =
      current.map (ReconstructedMergedBlockAcceptance.push rpcTx) := by
  refine List.ext_getElem? fun other => ?_
  rw [List.getElem?_modify, List.getElem?_map]
  cases found : current[other]? with
  | none => simp
  | some block =>
      have hashAt : (current.map ReconstructedMergedBlockAcceptance.hash)[other]? =
          some block.hash := by rw [List.getElem?_map, found, Option.map_some]
      rw [Option.map_eq_map, Option.map_some, Option.map_some,
        ReconstructedMergedBlockAcceptance.push, given]
      by_cases same : index = other
      · subst same
        rw [position] at hashAt
        rw [if_pos rfl, if_pos hashAt]
      · have different : some hash ≠ some block.hash := by
          rw [← position, ← hashAt]
          intro sameHash
          have bound := (List.getElem?_eq_some_iff.1 position).1
          exact same ((List.getElem?_inj bound distinct).1 sameHash)
        rw [if_neg same, if_neg different]

/-- The transactions are pushed if each of them is from one of the blocks, and each block then has
its transactions in their order. -/
theorem pushTransactions_eq_ok_iff
    (distinct : (mergedBlocks.map ReconstructedMergedBlockAcceptance.hash).Nodup)
    (hashes : current.map ReconstructedMergedBlockAcceptance.hash =
      mergedBlocks.map ReconstructedMergedBlockAcceptance.hash) :
    pushTransactions acceptedChainBlockHash (blockIndexesOf mergedBlocks) transactions current =
        .ok result ↔
      (∀ rpcTx ∈ transactions, ∃ block ∈ mergedBlocks, rpcTx.fromHash = some block.hash) ∧
        result = current.map (ReconstructedMergedBlockAcceptance.pushAll transactions) := by
  induction transactions generalizing current with
  | nil =>
      have unchanged : current.map (ReconstructedMergedBlockAcceptance.pushAll []) = current := by
        refine List.map_id'' (fun block => ?_) current
        simp [ReconstructedMergedBlockAcceptance.pushAll]
      simp [pushTransactions, unchanged, eq_comm]
  | cons rpcTx transactions ih =>
      rw [pushTransactions, bind_eq_ok, List.forall_mem_cons]
      have distinct' : (current.map ReconstructedMergedBlockAcceptance.hash).Nodup := by
        rwa [hashes]
      have joined : (current.map (ReconstructedMergedBlockAcceptance.push rpcTx)).map
          (ReconstructedMergedBlockAcceptance.pushAll transactions) =
          current.map (ReconstructedMergedBlockAcceptance.pushAll (rpcTx :: transactions)) := by
        rw [List.map_map]
        exact List.map_congr_left fun block _ => pushAll_push
      have next := @ih (current.map (ReconstructedMergedBlockAcceptance.push rpcTx))
        (by rw [map_hash_push, hashes])
      rw [joined] at next
      simp only [acceptedFrom_eq_ok, bind_eq_ok, orCustom_eq_ok,
        get_blockIndexesOf_eq_some_iff distinct]
      constructor
      · rintro ⟨hash, given, index, position, rest⟩
        rw [modify_eq_map given distinct' (by rwa [hashes])] at rest
        obtain ⟨complete, built⟩ := next.1 rest
        obtain ⟨block, member, sameHash⟩ := List.mem_map.1 (List.mem_of_getElem? position)
        exact ⟨⟨⟨block, member, by rw [given, sameHash]⟩, complete⟩, built⟩
      · rintro ⟨⟨⟨block, member, given⟩, complete⟩, built⟩
        obtain ⟨index, position⟩ := List.mem_iff_getElem?.1
          (List.mem_map_of_mem (f := ReconstructedMergedBlockAcceptance.hash) member)
        refine ⟨block.hash, given, index, position, ?_⟩
        rw [modify_eq_map given distinct' (by rwa [hashes])]
        exact next.2 ⟨complete, built⟩

end

/-! The reconstruction. -/

/-- The bucket of a block before the transactions are pushed. -/
def SortableBlock.bucket (entry : SortableBlock) : ReconstructedMergedBlockAcceptance :=
  ⟨entry.hash, entry.timestamp, []⟩

/-- The hashes of the blocks of a mergeset: the listed ones, and those that transactions name. -/
def mergesetHashes (verboseData : RpcBlockVerboseData)
    (transactions : List RpcOptionalTransaction) : List RpcHash :=
  verboseData.listed ++ transactions.filterMap RpcOptionalTransaction.fromHash

/-- What a chain block is rebuilt to: the buckets are the selected parent and then the other blocks
in their order, and each has the transactions from its block. -/
structure IsReconstruction (blocks : RpcHash → Except SyncError RpcBlock)
    (accepted : RpcChainBlockAcceptedTransactions) (verboseData : RpcBlockVerboseData)
    (parent : SortableBlock) (sorted : List SortableBlock)
    (result : ReconstructedChainBlockAcceptance) : Prop where
  hash : accepted.chainBlockHeader.hash = some result.acceptedChainBlockHash
  blueScore : accepted.chainBlockHeader.blueScore = some result.acceptingBlockBlueScore
  daaScore : accepted.chainBlockHeader.daaScore = some result.acceptingBlockDaaScore
  block : ∃ block, blocks result.acceptedChainBlockHash = .ok block ∧
    block.verboseData = some verboseData
  selectedParent : entryOf blocks verboseData.selectedParentHash = .ok parent
  complete : ∀ rpcTx ∈ accepted.acceptedTransactions, rpcTx.fromHash.isSome
  ordered : Ordered blocks verboseData.selectedParentHash
    (mergesetHashes verboseData accepted.acceptedTransactions) sorted
  mergedBlocks : result.mergedBlocks = (parent :: sorted).map fun entry : SortableBlock =>
    entry.bucket.pushAll accepted.acceptedTransactions

theorem selectedParentTimestamp_eq_ok {timestamp : ℕ}
    (found : selectedParentTimestamp bridge blockCache hash = .ok (timestamp, blockCache')) :
    ∃ entry, entryOf (lookup bridge blockCache) hash = .ok entry ∧
      entry.timestamp = timestamp ∧ lookup bridge blockCache' = lookup bridge blockCache := by
  unfold selectedParentTimestamp at found
  unfold entryOf
  split at found
  · rename_i origin
    cases found
    exact ⟨_, if_pos origin, rfl, rfl⟩
  · rename_i notOrigin
    rw [if_neg notOrigin]
    split at found
    · cases found
    · rename_i block blockCache fetched
      obtain ⟨answered, kept⟩ := lookup_of_getCachedBlock fetched
      cases found
      rw [answered]
      exact ⟨_, rfl, rfl, kept⟩

theorem exists_selectedParentTimestamp
    (built : entryOf (lookup bridge blockCache) hash = .ok entry) :
    ∃ blockCache',
      selectedParentTimestamp bridge blockCache hash = .ok (entry.timestamp, blockCache') := by
  unfold entryOf at built
  unfold selectedParentTimestamp
  split at built
  · rename_i origin
    cases built
    exact ⟨_, if_pos origin⟩
  · rename_i notOrigin
    rw [if_neg notOrigin]
    split at built
    · cases built
    · rename_i block answered
      cases built
      obtain ⟨blockCache', fetched⟩ := exists_getCachedBlock answered
      rw [fetched]
      exact ⟨_, rfl⟩

theorem cons_map_bucket {sorted : List SortableBlock} (sameHash : entry.hash = parent) :
    (⟨parent, entry.timestamp, []⟩ ::
      sorted.map fun block => ⟨block.hash, block.timestamp, []⟩) =
      (entry :: sorted).map SortableBlock.bucket := by
  rw [List.map_cons, SortableBlock.bucket, sameHash]
  rfl

theorem nodup_buckets {sorted : List SortableBlock} (sameHash : entry.hash = parent)
    (ordered : Ordered blocks parent hashes sorted) :
    (((entry :: sorted).map SortableBlock.bucket).map
      ReconstructedMergedBlockAcceptance.hash).Nodup := by
  have hashesOf : ((entry :: sorted).map SortableBlock.bucket).map
      ReconstructedMergedBlockAcceptance.hash = parent :: sorted.map SortableBlock.hash := by
    rw [List.map_map, List.map_cons, Function.comp_apply, SortableBlock.bucket, sameHash]
    rfl
  rw [hashesOf, List.nodup_cons, ordered.keys]
  exact ⟨fun member => member.2 rfl, ordered.distinct⟩

theorem Merging.collected_nil :
    Merging.Collected bridge (lookup bridge blockCache) parent []
      ⟨blockCache, (∅ : OrderedStore.Partition RpcHash Unit).insert parent (), []⟩ := by
  constructor
  case answers => rfl
  case known =>
    intro key
    rw [Partition.get_insert]
    split
    · rename_i same
      simp [same]
    · rename_i different
      simp [Ne.symm different]
  case entries => simp
  case keys => simp
  case distinct => exact List.nodup_nil

section

variable {accepted : RpcChainBlockAcceptedTransactions}
variable {result : ReconstructedChainBlockAcceptance}

theorem isReconstruction_of_reconstruct
    (reconstructed :
      reconstructChainBlockAcceptance bridge blockCache accepted = .ok (result, blockCache')) :
    (∃ verboseData entry sorted, IsReconstruction (lookup bridge blockCache) accepted verboseData
      entry sorted result) ∧ lookup bridge blockCache' = lookup bridge blockCache := by
  simp only [reconstructChainBlockAcceptance, bind_eq_ok, orCustom_eq_ok, Prod.exists,
    Except.ok.injEq, Prod.mk.injEq] at reconstructed
  obtain ⟨hash, givenHash, blueScore, givenBlueScore, daaScore, givenDaaScore, block, first,
    fetched, verboseData, verbose, timestamp, second, parentFound, listed, addedListed, merging,
    addedReferenced, mergedBlocks, pushed, rfl, rfl⟩ := reconstructed
  obtain ⟨answered, keptFirst⟩ := lookup_of_getCachedBlock fetched
  obtain ⟨entry, built, rfl, keptSecond⟩ := selectedParentTimestamp_eq_ok parentFound
  rw [keptFirst] at built keptSecond
  have sameHash := hash_of_entryOf built
  obtain ⟨complete, addedHashes⟩ := Merging.addReferenced_eq_ok_iff.1 addedReferenced
  have collected := (Merging.collected_nil.addListed addedListed).addListed addedHashes
  rw [keptSecond, List.nil_append] at collected
  have ordered := collected.ordered
  rw [cons_map_bucket sameHash, pushTransactions_eq_ok_iff (nodup_buckets sameHash ordered) rfl,
    List.map_map] at pushed
  refine ⟨⟨verboseData, entry, merging.sortable.insertionSort SortableBlock.Before, ?_⟩,
    collected.answers⟩
  exact {
    hash := givenHash
    blueScore := givenBlueScore
    daaScore := givenDaaScore
    block := ⟨block, answered, verbose⟩
    selectedParent := built
    complete := complete
    ordered := ordered
    mergedBlocks := pushed.2 }

/-- A chain block that has a reconstruction is rebuilt to it. -/
theorem reconstruct_of_isReconstruction {verboseData : RpcBlockVerboseData}
    {sorted : List SortableBlock}
    (isReconstruction : IsReconstruction (lookup bridge blockCache) accepted verboseData entry
      sorted result) :
    ∃ blockCache',
      reconstructChainBlockAcceptance bridge blockCache accepted = .ok (result, blockCache') := by
  obtain ⟨block, answered, verbose⟩ := isReconstruction.block
  have sameHash := hash_of_entryOf isReconstruction.selectedParent
  obtain ⟨first, fetched⟩ := exists_getCachedBlock answered
  have keptFirst := (lookup_of_getCachedBlock fetched).2
  have parentBuilt := isReconstruction.selectedParent
  rw [← keptFirst] at parentBuilt
  obtain ⟨second, parentFound⟩ := exists_selectedParentTimestamp parentBuilt
  have keptSecond : lookup bridge second = lookup bridge blockCache := by
    obtain ⟨_, _, _, kept⟩ := selectedParentTimestamp_eq_ok parentFound
    rw [kept, keptFirst]
  have found : ∀ key ∈ mergesetHashes verboseData accepted.acceptedTransactions,
      key ≠ verboseData.selectedParentHash →
      ∃ entry, entryOf (lookup bridge second) key = .ok entry := by
    intro key member notParent
    obtain ⟨other, inSorted, rfl⟩ := List.mem_map.1
      ((isReconstruction.ordered.keys key).2 ⟨member, notParent⟩)
    rw [keptSecond]
    exact ⟨other, isReconstruction.ordered.entries other inSorted⟩
  have start : Merging.Collected bridge (lookup bridge second) verboseData.selectedParentHash []
      ⟨second, (∅ : OrderedStore.Partition RpcHash Unit).insert verboseData.selectedParentHash (),
        []⟩ := Merging.collected_nil
  obtain ⟨listed, addedListed⟩ := start.exists_addListed fun key member =>
    found key (List.mem_append_left _ member)
  have collectedListed := start.addListed addedListed
  obtain ⟨merging, addedHashes⟩ := collectedListed.exists_addListed fun key member =>
    found key (List.mem_append_right _ member)
  have collected := collectedListed.addListed addedHashes
  rw [keptSecond, List.nil_append] at collected
  have sameOrder := collected.ordered.unique isReconstruction.ordered
  have named : ∀ rpcTx ∈ accepted.acceptedTransactions,
      ∃ block ∈ (entry :: sorted).map SortableBlock.bucket,
        rpcTx.fromHash = some block.hash := by
    intro rpcTx member
    obtain ⟨key, given⟩ := Option.isSome_iff_exists.1 (isReconstruction.complete rpcTx member)
    have inHashes : key ∈ mergesetHashes verboseData accepted.acceptedTransactions :=
      List.mem_append_right _ (List.mem_filterMap.2 ⟨rpcTx, member, given⟩)
    by_cases isParent : key = verboseData.selectedParentHash
    · refine ⟨entry.bucket, List.mem_cons_self, ?_⟩
      rw [given, isParent, SortableBlock.bucket, sameHash]
    · obtain ⟨other, inSorted, rfl⟩ := List.mem_map.1
        ((isReconstruction.ordered.keys key).2 ⟨inHashes, isParent⟩)
      exact ⟨other.bucket, List.mem_map_of_mem (List.mem_cons_of_mem _ inSorted), given⟩
  have pushed : pushTransactions result.acceptedChainBlockHash
      (blockIndexesOf ((entry :: sorted).map SortableBlock.bucket)) accepted.acceptedTransactions
      ((entry :: sorted).map SortableBlock.bucket) = .ok result.mergedBlocks := by
    rw [pushTransactions_eq_ok_iff (nodup_buckets sameHash isReconstruction.ordered) rfl,
      List.map_map]
    exact ⟨named, isReconstruction.mergedBlocks⟩
  refine ⟨merging.blockCache, ?_⟩
  simp only [reconstructChainBlockAcceptance, bind_eq_ok, orCustom_eq_ok, Prod.exists,
    Except.ok.injEq, Prod.mk.injEq]
  refine ⟨_, isReconstruction.hash, _, isReconstruction.blueScore, _, isReconstruction.daaScore,
    block, first, fetched, verboseData, verbose, entry.timestamp, second, parentFound, listed,
    addedListed, merging, Merging.addReferenced_eq_ok_iff.2
      ⟨isReconstruction.complete, addedHashes⟩, result.mergedBlocks, ?_, rfl, rfl⟩
  rw [cons_map_bucket sameHash, sameOrder]
  exact pushed

/-- A list is what its elements of each key are together. -/
theorem flatMap_filter_perm {Key Item : Type} [DecidableEq Key] {keyOf : Item → Option Key}
    {keys : List Key} {items : List Item} (distinct : keys.Nodup)
    (covered : ∀ item ∈ items, ∃ key ∈ keys, keyOf item = some key) :
    (keys.flatMap fun key => items.filter fun item => keyOf item = some key).Perm items := by
  induction keys generalizing items with
  | nil =>
      have empty : items = [] := List.eq_nil_iff_forall_not_mem.2 fun item member => by
        obtain ⟨key, none, _⟩ := covered item member
        cases none
      rw [empty, List.flatMap_nil]
  | cons key keys ih =>
      obtain ⟨fresh, distinct⟩ := List.nodup_cons.1 distinct
      have others : (keys.flatMap fun other => items.filter fun item => keyOf item = some other) =
          keys.flatMap fun other =>
            (items.filter fun item => !decide (keyOf item = some key)).filter
              fun item => keyOf item = some other := by
        refine List.flatMap_congr fun other member => ?_
        rw [List.filter_filter]
        refine List.filter_congr fun item _ => ?_
        have different : other ≠ key := fun same => fresh (same ▸ member)
        by_cases own : keyOf item = some other
        · simp [own, different]
        · simp [own]
      rw [List.flatMap_cons, others]
      refine ((ih distinct ?_).append_left _).trans (List.filter_append_perm _ items)
      intro item member
      obtain ⟨member, notKey⟩ := List.mem_filter.1 member
      obtain ⟨other, inKeys, given⟩ := covered item member
      refine ⟨other, (List.mem_cons.1 inKeys).resolve_left fun same => ?_, given⟩
      simp [given, same] at notKey

namespace IsReconstruction

variable {verboseData : RpcBlockVerboseData} {sorted : List SortableBlock}

theorem map_hash
    (isReconstruction : IsReconstruction blocks accepted verboseData entry sorted result) :
    result.mergedBlocks.map ReconstructedMergedBlockAcceptance.hash =
      verboseData.selectedParentHash :: sorted.map SortableBlock.hash := by
  rw [isReconstruction.mergedBlocks, List.map_map,
    ← hash_of_entryOf isReconstruction.selectedParent]
  rfl

theorem nodup_hash
    (isReconstruction : IsReconstruction blocks accepted verboseData entry sorted result) :
    (result.mergedBlocks.map ReconstructedMergedBlockAcceptance.hash).Nodup := by
  rw [isReconstruction.map_hash, List.nodup_cons, isReconstruction.ordered.keys]
  exact ⟨fun member => member.2 rfl, isReconstruction.ordered.distinct⟩

theorem transactions_eq
    (isReconstruction : IsReconstruction blocks accepted verboseData entry sorted result)
    {bucket : ReconstructedMergedBlockAcceptance} (member : bucket ∈ result.mergedBlocks) :
    bucket.transactions =
      accepted.acceptedTransactions.filter fun rpcTx => rpcTx.fromHash = some bucket.hash := by
  rw [isReconstruction.mergedBlocks] at member
  obtain ⟨other, _, rfl⟩ := List.mem_map.1 member
  rfl

theorem exists_bucket
    (isReconstruction : IsReconstruction blocks accepted verboseData entry sorted result)
    (member : rpcTx ∈ accepted.acceptedTransactions) :
    ∃ key ∈ result.mergedBlocks.map ReconstructedMergedBlockAcceptance.hash,
      rpcTx.fromHash = some key := by
  obtain ⟨key, given⟩ := Option.isSome_iff_exists.1 (isReconstruction.complete rpcTx member)
  refine ⟨key, ?_, given⟩
  rw [isReconstruction.map_hash, List.mem_cons, isReconstruction.ordered.keys]
  by_cases isParent : key = verboseData.selectedParentHash
  · exact .inl isParent
  · exact .inr ⟨List.mem_append_right _ (List.mem_filterMap.2 ⟨rpcTx, member, given⟩), isParent⟩

/-- The buckets together have each transaction once. -/
theorem transactions_perm
    (isReconstruction : IsReconstruction blocks accepted verboseData entry sorted result) :
    (result.mergedBlocks.flatMap ReconstructedMergedBlockAcceptance.transactions).Perm
      accepted.acceptedTransactions := by
  have byKey : result.mergedBlocks.flatMap ReconstructedMergedBlockAcceptance.transactions =
      (result.mergedBlocks.map ReconstructedMergedBlockAcceptance.hash).flatMap fun key =>
        accepted.acceptedTransactions.filter fun rpcTx => rpcTx.fromHash = some key := by
    rw [List.flatMap_map]
    exact List.flatMap_congr fun bucket member => isReconstruction.transactions_eq member
  rw [byKey]
  exact flatMap_filter_perm isReconstruction.nodup_hash fun rpcTx member =>
    isReconstruction.exists_bucket member

end IsReconstruction

end

/-! The order in which the node lists the blues and the reds. -/

/-- The same blues and reds in another order, or more than once. -/
structure RpcBlockVerboseData.Relisted (verboseData verboseData' : RpcBlockVerboseData) :
    Prop where
  selectedParent : verboseData.selectedParentHash = verboseData'.selectedParentHash
  members : ∀ hash,
    hash ∈ verboseData.mergeSetBluesHashes ++ verboseData.mergeSetRedsHashes ↔
      hash ∈ verboseData'.mergeSetBluesHashes ++ verboseData'.mergeSetRedsHashes

structure RpcBlock.Relisted (block block' : RpcBlock) : Prop where
  header : block.header = block'.header
  verboseData : Option.Rel RpcBlockVerboseData.Relisted block.verboseData block'.verboseData

/-- Where one node answers, the other gives the block with its lists in another order. -/
def Answers (blocks blocks' : RpcHash → Except SyncError RpcBlock) : Prop :=
  ∀ hash block, blocks hash = .ok block →
    ∃ block', blocks' hash = .ok block' ∧ block.Relisted block'

theorem RpcBlockVerboseData.mem_listed {verboseData : RpcBlockVerboseData}
    (notParent : hash ≠ verboseData.selectedParentHash) :
    hash ∈ verboseData.listed ↔
      hash ∈ verboseData.mergeSetBluesHashes ++ verboseData.mergeSetRedsHashes := by
  simp [listed, notParent]

theorem Answers.entryOf (answers : Answers blocks blocks')
    (built : entryOf blocks hash = .ok entry) : entryOf blocks' hash = .ok entry := by
  unfold Krc721.entryOf at built ⊢
  split
  · rename_i origin
    rw [if_pos origin] at built
    exact built
  · rename_i notOrigin
    rw [if_neg notOrigin] at built
    split at built
    · cases built
    · rename_i block found
      obtain ⟨block', found', relisted⟩ := answers hash block found
      rw [found']
      dsimp only
      rw [← relisted.header]
      exact built

section

variable {accepted : RpcChainBlockAcceptedTransactions}
variable {result : ReconstructedChainBlockAcceptance} {verboseData : RpcBlockVerboseData}
variable {sorted : List SortableBlock} {bridge' : Bridge}

theorem IsReconstruction.relisted (answers : Answers blocks blocks')
    (isReconstruction : IsReconstruction blocks accepted verboseData entry sorted result) :
    ∃ verboseData', IsReconstruction blocks' accepted verboseData' entry sorted result := by
  obtain ⟨block, found, verbose⟩ := isReconstruction.block
  obtain ⟨block', found', relisted⟩ := answers _ block found
  have related := relisted.verboseData
  rw [verbose] at related
  cases verbose' : block'.verboseData with
  | none =>
      rw [verbose'] at related
      cases related
  | some verboseData' =>
      rw [verbose'] at related
      cases related with
      | some listedAgain =>
          have sameParent := listedAgain.selectedParent
          refine ⟨verboseData', ?_⟩
          constructor
          case hash => exact isReconstruction.hash
          case blueScore => exact isReconstruction.blueScore
          case daaScore => exact isReconstruction.daaScore
          case block => exact ⟨block', found', verbose'⟩
          case selectedParent =>
            rw [← sameParent]
            exact answers.entryOf isReconstruction.selectedParent
          case complete => exact isReconstruction.complete
          case mergedBlocks => exact isReconstruction.mergedBlocks
          case ordered =>
            rw [← sameParent]
            refine isReconstruction.ordered.transfer (fun key notParent => ?_)
              fun key other => answers.entryOf
            rw [mergesetHashes, mergesetHashes, List.mem_append, List.mem_append,
              RpcBlockVerboseData.mem_listed notParent,
              RpcBlockVerboseData.mem_listed (sameParent ▸ notParent), listedAgain.members]

theorem reconstruct_relisted
    (answers : Answers (lookup bridge blockCache) (lookup bridge' blockCache'))
    {after : BlockCache}
    (reconstructed :
      reconstructChainBlockAcceptance bridge blockCache accepted = .ok (result, after)) :
    ∃ after', reconstructChainBlockAcceptance bridge' blockCache' accepted =
      .ok (result, after') ∧ Answers (lookup bridge after) (lookup bridge' after') := by
  obtain ⟨⟨verboseData, entry, sorted, isReconstruction⟩, kept⟩ :=
    isReconstruction_of_reconstruct reconstructed
  obtain ⟨verboseData', again⟩ := isReconstruction.relisted answers
  obtain ⟨after', rebuilt⟩ := reconstruct_of_isReconstruction again
  refine ⟨after', rebuilt, ?_⟩
  rwa [kept, (isReconstruction_of_reconstruct rebuilt).2]

theorem reconstructAll_relisted {request : List RpcChainBlockAcceptedTransactions}
    {results : List ReconstructedChainBlockAcceptance}
    (answers : Answers (lookup bridge blockCache) (lookup bridge' blockCache'))
    (reconstructed : reconstructAll bridge request blockCache = .ok results) :
    reconstructAll bridge' request blockCache' = .ok results := by
  induction request generalizing blockCache blockCache' results with
  | nil => exact reconstructed
  | cons accepted request ih =>
      rw [reconstructAll, bind_eq_ok] at reconstructed
      obtain ⟨⟨result, after⟩, first, rest⟩ := reconstructed
      obtain ⟨others, restOk, built⟩ := bind_eq_ok.1 rest
      obtain ⟨after', first', answers'⟩ := reconstruct_relisted answers first
      rw [reconstructAll, bind_eq_ok]
      exact ⟨(result, after'), first', bind_eq_ok.2 ⟨others, ih answers' restOk, built⟩⟩

/-- The mergesets of a response, with the scores of their operations and their entropy, do not
depend on the order in which the node lists the blues and the reds. -/
theorem reconstructAndProcess_relisted (crates : Crates) (analyzer : Analyzer)
    {request : List RpcChainBlockAcceptedTransactions}
    {mergesets : Except Failure (List Mergeset)} (answers : Answers
      (fun hash => bridge hash false) (fun hash => bridge' hash false))
    (processed : reconstructAndProcessAcceptanceData crates analyzer bridge request =
      .ok mergesets) :
    reconstructAndProcessAcceptanceData crates analyzer bridge' request = .ok mergesets := by
  rw [reconstructAndProcessAcceptanceData, bind_eq_ok] at processed ⊢
  obtain ⟨results, reconstructed, built⟩ := processed
  have empty : ∀ bridge : Bridge, lookup bridge ∅ = fun hash => bridge hash false :=
    fun bridge => funext fun hash => by rw [lookup, Partition.get_empty]
  rw [← empty, ← empty] at answers
  exact ⟨results, reconstructAll_relisted answers reconstructed, built⟩

/-- A chain block is rebuilt with each accepted transaction once, in the bucket of its block and in
order; the selected parent is in front of the other buckets, which are in the order of the
consensus. The order in which the node lists the blues and the reds changes neither this nor the
mergesets. -/
theorem reconstruct_canonical {after : BlockCache}
    (reconstructed :
      reconstructChainBlockAcceptance bridge blockCache accepted = .ok (result, after)) :
    (∃ verboseData entry sorted,
      IsReconstruction (lookup bridge blockCache) accepted verboseData entry sorted result ∧
        result.mergedBlocks.map ReconstructedMergedBlockAcceptance.hash =
          verboseData.selectedParentHash :: sorted.map SortableBlock.hash ∧
        sorted.Pairwise SortableBlock.Earlier) ∧
      (result.mergedBlocks.map ReconstructedMergedBlockAcceptance.hash).Nodup ∧
      (∀ bucket ∈ result.mergedBlocks, bucket.transactions =
        accepted.acceptedTransactions.filter fun rpcTx => rpcTx.fromHash = some bucket.hash) ∧
      (result.mergedBlocks.flatMap ReconstructedMergedBlockAcceptance.transactions).Perm
        accepted.acceptedTransactions ∧
      (∀ bridge' blockCache', Answers (lookup bridge blockCache) (lookup bridge' blockCache') →
        ∃ after', reconstructChainBlockAcceptance bridge' blockCache' accepted =
          .ok (result, after')) ∧
      ∀ crates analyzer bridge' request mergesets,
        Answers (fun hash => bridge hash false) (fun hash => bridge' hash false) →
        reconstructAndProcessAcceptanceData crates analyzer bridge request = .ok mergesets →
        reconstructAndProcessAcceptanceData crates analyzer bridge' request = .ok mergesets := by
  obtain ⟨⟨verboseData, entry, sorted, isReconstruction⟩, _⟩ :=
    isReconstruction_of_reconstruct reconstructed
  refine ⟨⟨verboseData, entry, sorted, isReconstruction, isReconstruction.map_hash,
    isReconstruction.ordered.earlier⟩, isReconstruction.nodup_hash, ?_,
    isReconstruction.transactions_perm, ?_, ?_⟩
  · intro bucket member
    exact isReconstruction.transactions_eq member
  · intro bridge' blockCache' answers
    obtain ⟨after', rebuilt, _⟩ := reconstruct_relisted answers reconstructed
    exact ⟨after', rebuilt⟩
  · intro crates analyzer bridge' request mergesets answers processed
    exact reconstructAndProcess_relisted crates analyzer answers processed

end

end

namespace RebuiltSample

/-- The chain block 9 on top of 5 merges 2 and 7 of equal blue work. -/
def bridge : Bridge := fun hash _ => .ok {
  header := ⟨if hash = 5 then 40 else 30, 1000 + hash⟩
  verboseData := if hash = 9 then some ⟨5, [5, 7], [2]⟩ else none }

def transactionFrom (hash : RpcHash) : RpcOptionalTransaction := ⟨[], [], none, some ⟨some hash⟩⟩

/-- The block 4 is not listed. -/
def accepted : RpcChainBlockAcceptedTransactions :=
  ⟨⟨some 9, some 100, some 200⟩, [transactionFrom 7, transactionFrom 4, transactionFrom 5,
    transactionFrom 7]⟩

def rebuilt : ReconstructedChainBlockAcceptance :=
  ⟨9, 100, 200, [⟨5, 1005, [transactionFrom 5]⟩, ⟨2, 1002, []⟩, ⟨4, 1004, [transactionFrom 4]⟩,
    ⟨7, 1007, [transactionFrom 7, transactionFrom 7]⟩]⟩

end RebuiltSample

theorem exists_reconstruct_rebuilt :
    ∃ after, reconstructChainBlockAcceptance RebuiltSample.bridge ∅ RebuiltSample.accepted =
      .ok (RebuiltSample.rebuilt, after) := by
  have computed : (reconstructChainBlockAcceptance RebuiltSample.bridge ∅
      RebuiltSample.accepted).toOption.map Prod.fst = some RebuiltSample.rebuilt := by
    decide +kernel
  cases outcome : reconstructChainBlockAcceptance RebuiltSample.bridge ∅
      RebuiltSample.accepted with
  | error error =>
      rw [outcome] at computed
      cases computed
  | ok pair =>
      rw [outcome] at computed
      exact ⟨pair.2, by rw [← Option.some.inj computed]⟩

theorem reconstruct_canonical_rebuilt :
    (RebuiltSample.rebuilt.mergedBlocks.map ReconstructedMergedBlockAcceptance.hash).Nodup ∧
      (RebuiltSample.rebuilt.mergedBlocks.flatMap
        ReconstructedMergedBlockAcceptance.transactions).Perm
        RebuiltSample.accepted.acceptedTransactions := by
  obtain ⟨after, reconstructed⟩ := exists_reconstruct_rebuilt
  have canonical := reconstruct_canonical reconstructed
  exact ⟨canonical.2.1, canonical.2.2.2.1⟩

end Krc721
