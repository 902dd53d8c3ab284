import Krc721.Accessor.PageProperties
import Krc721.Market.Owners

/-! Walks over the pages of the accessor. The offset of every listing is the score or the token id
of a record, so following the offsets shows every record once; a record that cannot be shown ends
the walk with an error. -/

set_option autoImplicit false

namespace Krc721

open OrderedStore SymbolStream

/-! Records in the direction of a request. -/

namespace Direction

variable {Row Position : Type} [LinearOrder Position] (direction : Direction)
  (positionOf : Row → Position) (rows : List Row)

def arrange : List Row :=
  match direction with
  | .forward => rows
  | .backward => rows.reverse

/-- The records from an offset on. -/
def rowsFrom (offset : Option Position) : List Row :=
  match direction with
  | .forward => Paging.fromPosition positionOf rows offset
  | .backward => Paging.downFrom positionOf rows.reverse offset

theorem rowsFrom_none : direction.rowsFrom positionOf rows none = direction.arrange rows := by
  cases direction <;> rfl

variable {direction positionOf rows}

theorem mem_arrange {row : Row} : row ∈ direction.arrange rows ↔ row ∈ rows := by
  cases direction with
  | forward => exact Iff.rfl
  | backward => exact List.mem_reverse

theorem mem_of_mem_rowsFrom {offset : Option Position} {row : Row}
    (member : row ∈ direction.rowsFrom positionOf rows offset) : row ∈ rows := by
  cases direction with
  | forward =>
      cases offset with
      | none => exact member
      | some position => exact List.mem_of_mem_filter member
  | backward =>
      cases offset with
      | none => exact List.mem_reverse.1 member
      | some position => exact List.mem_reverse.1 (List.mem_of_mem_filter member)

theorem rowsFrom_resumes
    (ascending : rows.Pairwise fun left right => positionOf left < positionOf right)
    {offset : Option Position} {before after : List Row} {row : Row}
    (split : direction.rowsFrom positionOf rows offset = before ++ row :: after) :
    direction.rowsFrom positionOf rows (some (positionOf row)) = row :: after := by
  cases direction with
  | forward => exact Paging.fromPosition_resumes ascending split
  | backward => exact Paging.downFrom_resumes (List.pairwise_reverse.2 ascending) split

theorem rowsFrom_eq_arrange {position : Position}
    (before : ∀ row ∈ rows, match direction with
      | .forward => position ≤ positionOf row
      | .backward => positionOf row ≤ position) :
    direction.rowsFrom positionOf rows (some position) = direction.arrange rows := by
  cases direction with
  | forward => exact List.filter_eq_self.2 fun row member => decide_eq_true (before row member)
  | backward =>
      exact List.filter_eq_self.2 fun row member =>
        decide_eq_true (before row (List.mem_reverse.1 member))

theorem rowsFrom_start {scoreOf : Row → ℕ} (bounded : ∀ row ∈ rows, scoreOf row ≤ u64Max)
    (offset : Option ℕ) :
    direction.rowsFrom scoreOf rows (some (offset.getD direction.start)) =
      direction.rowsFrom scoreOf rows offset := by
  cases offset with
  | some position => rfl
  | none =>
      rw [rowsFrom_none, Option.getD_none]
      refine rowsFrom_eq_arrange fun row member => ?_
      cases direction with
      | forward => exact Nat.zero_le _
      | backward => exact bounded row member

end Direction

/-! The records of the five listings. -/

theorem OwnershipKey.between_iff {tick : Tick} {key : OwnershipKey} {low high : ℕ} :
    (⟨tick, low⟩ ≤ key ∧ key ≤ ⟨tick, high⟩) ↔
      key.tick = tick ∧ low ≤ key.tokenId ∧ key.tokenId ≤ high := by
  rw [← not_lt, ← not_lt, lt_iff, lt_iff, between_same_first, not_lt, not_lt]

theorem OwnershipHistoryKey.between_iff {tick : Tick} {tokenId : ℕ} {key : OwnershipHistoryKey}
    {low high : ℕ} :
    (⟨tick, tokenId, low⟩ ≤ key ∧ key ≤ ⟨tick, tokenId, high⟩) ↔
      (key.tick = tick ∧ key.tokenId = tokenId) ∧
        low ≤ key.reversedScore ∧ key.reversedScore ≤ high := by
  rw [← not_lt, ← not_lt, lt_iff, lt_iff, between_same_first, between_same_first, not_lt,
    not_lt, and_assoc]

namespace Db

variable (db : Db)

/-- The scores and token ids of the stored keys are of type `u64`, and their ticks are bytes. -/
structure KeysFit : Prop where
  operations : ∀ score, (db.operationHistory.get score).isSome → score ≤ u64Max
  deployments : ∀ key, (db.collectionDeployments.get key).isSome →
    key.score ≤ u64Max ∧ key.tick ≤ Tick.MAX
  tokens : ∀ key, (db.currentOwnership.get key).isSome → key.tokenId ≤ u64Max
  history : ∀ key, (db.ownershipHistory.get key).isSome → key.reversedScore ≤ u64Max

def OneDeploymentPerScore : Prop :=
  ∀ key key', (db.collectionDeployments.get key).isSome →
    (db.collectionDeployments.get key').isSome → key.score = key'.score → key = key'

/-- The deployments that are not restricted, by score. -/
def shownDeployments (restrictedProtocols : List String) :
    List (DeploymentKey × DeployInfoWithCommon) :=
  db.collectionDeployments.entries.filter fun entry =>
    !entry.2.hasIncompatibleUriPrefix restrictedProtocols

/-- The tokens of a collection that is shown, by token id. -/
def shownTokens (tick : Tick) (restrictedProtocols : List String) :
    List (OwnershipKey × CurrentOwnershipValue) :=
  match db.shownCollection tick restrictedProtocols with
  | none => []
  | some _ => db.currentOwnership.entries.filter fun entry => entry.1.tick = tick

/-- The owners of a token of a collection that is shown, by score. -/
def shownHistory (tick : Tick) (tokenId : ℕ) (restrictedProtocols : List String) :
    List (OwnershipHistoryKey × ScriptPublicKey) :=
  match db.shownCollection tick restrictedProtocols with
  | none => []
  | some _ => (db.ownershipHistory.entries.filter fun entry =>
      entry.1.tick = tick ∧ entry.1.tokenId = tokenId).reverse

/-! What the queries scan are the records from the offset on. -/

variable {db} {direction : Direction} {limit offset : ℕ}

theorem operationRows_eq :
    db.operationRows ⟨offset, direction, limit⟩ =
      direction.rowsFrom (fun entry => entry.1) db.operationHistory.entries (some offset) := by
  cases direction with
  | forward => rfl
  | backward => exact List.filter_reverse.symm

theorem shownDeployments_eq (fits : db.KeysFit) (restrictedProtocols : List String) :
    (db.deploymentRows ⟨offset, direction, limit⟩).filter
        (fun entry => !entry.2.hasIncompatibleUriPrefix restrictedProtocols) =
      direction.rowsFrom (fun entry => entry.1.score) (db.shownDeployments restrictedProtocols)
        (some offset) := by
  cases direction with
  | forward =>
      simp only [deploymentRows, Direction.rowsFrom, Paging.fromPosition, shownDeployments,
        Partition.entriesFrom, DeploymentKey.start_le_iff]
      rw [List.filter_comm]
  | backward =>
      simp only [deploymentRows, Direction.rowsFrom, Paging.downFrom, shownDeployments,
        List.filter_reverse]
      rw [List.filter_comm]
      refine congrArg List.reverse (List.filter_congr fun entry member => ?_)
      obtain ⟨key, info⟩ := entry
      have stored := Partition.mem_entries.1 (List.mem_of_mem_filter member)
      have tickLe := (fits.deployments key (by rw [stored]; rfl)).2
      have bound : key ≤ ⟨offset, Tick.MAX⟩ ↔ key.score ≤ offset := by
        rw [← not_lt, DeploymentKey.lt_iff]
        have noTick := not_lt.2 tickLe
        simp only [noTick, and_false, or_false, not_lt]
      simp only [bound]

theorem shownTokens_eq (fits : db.KeysFit) {tick : Tick} :
    db.ownershipRows tick ⟨offset, direction, limit⟩ =
      direction.rowsFrom (fun entry => entry.1.tokenId)
        (db.currentOwnership.entries.filter fun entry => entry.1.tick = tick) (some offset) := by
  cases direction with
  | forward =>
      simp only [ownershipRows, Direction.rowsFrom, Paging.fromPosition, Partition.entriesFrom,
        List.filter_filter]
      refine List.filter_congr fun entry member => ?_
      obtain ⟨key, value⟩ := entry
      have bound := fits.tokens key (Partition.isSome_get_of_mem_entries member)
      have same := @OwnershipKey.between_iff tick key offset u64Max
      simp only [bound, and_true] at same
      rw [← Bool.decide_and, ← Bool.decide_and, decide_eq_decide, and_comm, same, and_comm]
  | backward =>
      simp only [ownershipRows, Direction.rowsFrom, Paging.downFrom, Partition.entriesFrom,
        List.filter_filter, List.filter_reverse]
      refine congrArg List.reverse (List.filter_congr fun entry member => ?_)
      obtain ⟨key, value⟩ := entry
      have same := @OwnershipKey.between_iff tick key 0 offset
      simp only [Nat.zero_le, true_and] at same
      rw [← Bool.decide_and, ← Bool.decide_and, decide_eq_decide, and_comm, same, and_comm]

theorem krc721TokenHistoryList_eq {tick : Tick} {tokenId : ℕ} {args : IteratorArgs ℕ}
    {restrictedProtocols : List String} :
    db.krc721TokenHistoryList tick tokenId args restrictedProtocols =
      match db.shownCollection tick restrictedProtocols with
      | none => .ok none
      | some _ => processIter (db.historyRows tick tokenId args) args.limit fun entry =>
          db.tokenHistoryRecord entry.1 entry.2 := by
  unfold krc721TokenHistoryList shownCollection
  cases db.collectionRegistry.get tick with
  | none => rfl
  | some dinfo =>
      simp only
      split <;> rfl

/-- The scores of the history are the reversed ones of its keys. -/
theorem shownHistory_eq
    (scored : ∀ key, (db.ownershipHistory.get key).isSome → key.reversedScore ≤ u64Max)
    {tick : Tick} {tokenId : ℕ} :
    db.historyRows tick tokenId ⟨offset, direction, limit⟩ =
      direction.rowsFrom (fun entry => u64Max - entry.1.reversedScore)
        (db.ownershipHistory.entries.filter fun entry =>
          entry.1.tick = tick ∧ entry.1.tokenId = tokenId).reverse (some (min offset u64Max)) := by
  cases direction with
  | forward =>
      simp only [historyRows, Direction.rowsFrom, Paging.fromPosition, Partition.entriesFrom,
        List.filter_filter, List.filter_reverse]
      refine congrArg List.reverse (List.filter_congr fun entry member => ?_)
      obtain ⟨key, owner⟩ := entry
      have bound := scored key (Partition.isSome_get_of_mem_entries member)
      have same := @OwnershipHistoryKey.between_iff tick tokenId key 0 (u64Max - offset)
      have flip : key.reversedScore ≤ u64Max - offset ↔
          min offset u64Max ≤ u64Max - key.reversedScore := by omega
      simp only [Nat.zero_le, true_and, flip] at same
      rw [← Bool.decide_and, ← Bool.decide_and, decide_eq_decide, and_comm,
        OwnershipHistoryKey.withScore, same, and_comm]
  | backward =>
      simp only [historyRows, Direction.rowsFrom, Paging.downFrom, Partition.entriesFrom,
        List.filter_filter, List.reverse_reverse]
      refine List.filter_congr fun entry member => ?_
      obtain ⟨key, owner⟩ := entry
      have bound := scored key (Partition.isSome_get_of_mem_entries member)
      have same := @OwnershipHistoryKey.between_iff tick tokenId key (u64Max - offset) u64Max
      have flip : u64Max - offset ≤ key.reversedScore ↔
          u64Max - key.reversedScore ≤ min offset u64Max := by omega
      simp only [bound, and_true, flip] at same
      rw [← Bool.decide_and, ← Bool.decide_and, decide_eq_decide, and_comm,
        OwnershipHistoryKey.withScore, same, and_comm]

end Db

/-! What a record needs to be shown. -/

/-- The scripts of a logged operation that are shown as addresses. -/
def Operation.shownScripts (operation : Operation) : List ScriptPublicKey :=
  operation.common.sender :: (operation.info.royaltyTo.toList ++ operation.info.recipient.toList)

/-- The scripts that are shown with a deployment of the list of deployments. -/
def DeployInfoWithCommon.shownScripts (deployment : DeployInfoWithCommon) : List ScriptPublicKey :=
  deployment.common.sender :: (deployment.info.royalty.map (·.beneficiary)).toList

/-- The scripts that are shown with a collection. -/
def DeployInfoWithCommon.collectionScripts (deployment : DeployInfoWithCommon) :
    List ScriptPublicKey :=
  deployment.info.deployer :: (deployment.info.royalty.map (·.beneficiary)).toList

namespace Accessor

variable (accessor : Accessor)

def IsShown (spk : ScriptPublicKey) : Prop := ∃ address, accessor.addressOf spk = .ok address

/-- What is shown of the collection of a deployment. -/
def ShowsCollection (db : Db) (entry : DeploymentKey × DeployInfoWithCommon)
    (item : CollectionMetaWrapper) : Prop :=
  ∃ collection, db.collection entry.1 entry.2 = .ok collection ∧
    accessor.collectionMetaWrapper collection = .ok item

/-- What is shown of an owner of a token. -/
def ShowsHistory (db : Db) (entry : OwnershipHistoryKey × ScriptPublicKey)
    (item : HistoryEntity) : Prop :=
  ∃ record, db.tokenHistoryRecord entry.1 entry.2 = .ok record ∧
    accessor.historyEntity record = .ok item

def ShowsToken (db : Db) (tick : Tick) (entry : OwnershipKey × CurrentOwnershipValue)
    (item : Token) : Prop :=
  accessor.token tick ⟨entry.1.tokenId, entry.2.owner, entry.2.modTxScore,
    db.tokenListing tick entry.1.tokenId⟩ = .ok item

variable {accessor}

theorem exists_addressOf? {spk? : Option ScriptPublicKey} :
    (∃ address, accessor.addressOf? spk? = .ok address) ↔
      ∀ spk ∈ spk?.toList, accessor.IsShown spk := by
  cases spk? with
  | none => simp [addressOf?]
  | some spk =>
      simp only [addressOf?, IsShown, Option.toList_some, List.mem_singleton, forall_eq]
      cases accessor.addressOf spk <;> simp [Except.map]

theorem exists_operationMetaWrapper {score : ℕ} {op : CheckedOperation} :
    (∃ item, accessor.operationMetaWrapper score op = .ok item) ↔
      ∀ spk ∈ op.operation.shownScripts, accessor.IsShown spk := by
  simp only [operationMetaWrapper, bind_eq_ok, Operation.shownScripts, List.forall_mem_cons,
    List.forall_mem_append, ← exists_addressOf?]
  constructor
  · rintro ⟨_, deployer, sender, royaltyTo, royalty, toAddress, recipient, _⟩
    exact ⟨⟨deployer, sender⟩, ⟨royaltyTo, royalty⟩, toAddress, recipient⟩
  · rintro ⟨⟨deployer, sender⟩, ⟨royaltyTo, royalty⟩, toAddress, recipient⟩
    exact ⟨_, deployer, sender, royaltyTo, royalty, toAddress, recipient, rfl⟩

theorem exists_scoredDeployInfoWithCommon {score : ℕ} {deployment : DeployInfoWithCommon} :
    (∃ item, accessor.scoredDeployInfoWithCommon score deployment = .ok item) ↔
      ∀ spk ∈ deployment.shownScripts, accessor.IsShown spk := by
  simp only [scoredDeployInfoWithCommon, bind_eq_ok, DeployInfoWithCommon.shownScripts,
    List.forall_mem_cons, ← exists_addressOf?]
  constructor
  · rintro ⟨_, deployer, sender, royaltyTo, royalty, _⟩
    exact ⟨⟨deployer, sender⟩, royaltyTo, royalty⟩
  · rintro ⟨⟨deployer, sender⟩, royaltyTo, royalty⟩
    exact ⟨_, deployer, sender, royaltyTo, royalty, rfl⟩

theorem exists_collectionMetaWrapper {collection : Collection} :
    (∃ item, accessor.collectionMetaWrapper collection = .ok item) ↔
      ∀ spk ∈ collection.deployInfoWithCommon.collectionScripts, accessor.IsShown spk := by
  simp only [collectionMetaWrapper, bind_eq_ok, DeployInfoWithCommon.collectionScripts,
    List.forall_mem_cons, ← exists_addressOf?]
  constructor
  · rintro ⟨_, deployer, sender, royaltyTo, royalty, _⟩
    exact ⟨⟨deployer, sender⟩, royaltyTo, royalty⟩
  · rintro ⟨⟨deployer, sender⟩, royaltyTo, royalty⟩
    exact ⟨_, deployer, sender, royaltyTo, royalty, rfl⟩

theorem exists_token {tick : Tick} {ownership : Ownership} :
    (∃ item, accessor.token tick ownership = .ok item) ↔ accessor.IsShown ownership.owner := by
  simp only [token, bind_eq_ok]
  constructor
  · rintro ⟨_, owner, shown, _⟩
    exact ⟨owner, shown⟩
  · rintro ⟨owner, shown⟩
    exact ⟨_, owner, shown, rfl⟩

theorem exists_showsHistory {db : Db} {entry : OwnershipHistoryKey × ScriptPublicKey} :
    (∃ item, accessor.ShowsHistory db entry item) ↔
      (db.operationHistory.get (u64Max - entry.1.reversedScore)).isSome ∧
        accessor.IsShown entry.2 := by
  simp only [ShowsHistory, Db.tokenHistoryRecord]
  cases db.operationHistory.get (u64Max - entry.1.reversedScore) with
  | none => simp
  | some checked =>
      simp only [Except.ok.injEq, exists_eq_left', Option.isSome_some, true_and, historyEntity,
        bind_eq_ok]
      constructor
      · rintro ⟨_, owner, shown, _⟩
        exact ⟨owner, shown⟩
      · rintro ⟨owner, shown⟩
        exact ⟨_, owner, shown, rfl⟩

theorem exists_showsCollection {db : Db} {entry : DeploymentKey × DeployInfoWithCommon} :
    (∃ item, accessor.ShowsCollection db entry item) ↔
      (∀ last, db.lastMintedToken entry.1.tick = some last →
        (db.operationHistory.get last.score).isSome) ∧
      ∀ spk ∈ entry.2.collectionScripts, accessor.IsShown spk := by
  have shown (collection : Collection) (same : collection.deployInfoWithCommon = entry.2) :
      (∃ item, accessor.collectionMetaWrapper collection = .ok item) ↔
        ∀ spk ∈ entry.2.collectionScripts, accessor.IsShown spk := by
    rw [exists_collectionMetaWrapper, same]
  simp only [ShowsCollection, Db.collection]
  cases db.lastMintedToken entry.1.tick with
  | none =>
      simp only [Except.ok.injEq, exists_eq_left', reduceCtorEq, false_implies, implies_true,
        true_and]
      exact shown _ rfl
  | some last =>
      simp only [Option.some.injEq, forall_eq']
      cases db.operationHistory.get last.score with
      | none => simp
      | some checked =>
          simp only [Except.ok.injEq, exists_eq_left', Option.isSome_some, true_and]
          exact shown _ rfl

/-! The walks. -/

/-- Following the offsets from a request without one ends, and shows the records in their order,
each of them once. -/
def Yields {Record Item : Type} (fetch : Option ℕ → Except CoreError (Pagination Item ℕ))
    (records : List Record) (shows : Record → Item → Prop) : Prop :=
  ∃ items, Paging.Follows fetch none items ∧ List.Forall₂ shows records items

/-- Each of the five walks yields its records exactly if every one of them can be shown. -/
structure WalksYield (accessor : Accessor) (db : Db) (direction : Option Direction)
    (limit : Option ℕ) : Prop where
  collectionList :
    Yields (fun offset => accessor.krc721CollectionList db ⟨offset, direction, limit⟩)
      ((direction.getD .forward).arrange (db.shownDeployments accessor.restrictedProtocols))
      (accessor.ShowsCollection db) ↔
    ∀ entry ∈ db.shownDeployments accessor.restrictedProtocols,
      (∀ last, db.lastMintedToken entry.1.tick = some last →
        (db.operationHistory.get last.score).isSome) ∧
      ∀ spk ∈ entry.2.collectionScripts, accessor.IsShown spk
  deploymentList :
    Yields (fun offset => accessor.krc721DeploymentList db ⟨offset, direction, limit⟩)
      ((direction.getD .forward).arrange (db.shownDeployments accessor.restrictedProtocols))
      (fun entry item => accessor.scoredDeployInfoWithCommon entry.1.score entry.2 = .ok item) ↔
    ∀ entry ∈ db.shownDeployments accessor.restrictedProtocols,
      ∀ spk ∈ entry.2.shownScripts, accessor.IsShown spk
  opList :
    Yields (fun offset => accessor.krc721OpList db ⟨offset, direction, limit⟩)
      ((direction.getD .forward).arrange db.operationHistory.entries)
      (fun entry item => accessor.operationMetaWrapper entry.1 entry.2 = .ok item) ↔
    ∀ entry ∈ db.operationHistory.entries,
      ∀ spk ∈ entry.2.operation.shownScripts, accessor.IsShown spk
  tokenList : ∀ tick,
    Yields (fun offset => accessor.krc721TokenList db tick ⟨offset, direction, limit⟩)
      ((direction.getD .forward).arrange (db.shownTokens tick accessor.restrictedProtocols))
      (accessor.ShowsToken db tick) ↔
    ∀ entry ∈ db.shownTokens tick accessor.restrictedProtocols, accessor.IsShown entry.2.owner
  tokenHistory : ∀ tick tokenId,
    Yields (fun offset => accessor.krc721TokenHistory db tick tokenId ⟨offset, direction, limit⟩)
      ((direction.getD .forward).arrange
        (db.shownHistory tick tokenId accessor.restrictedProtocols))
      (accessor.ShowsHistory db) ↔
    ∀ entry ∈ db.shownHistory tick tokenId accessor.restrictedProtocols,
      (db.operationHistory.get (u64Max - entry.1.reversedScore)).isSome ∧
        accessor.IsShown entry.2

theorem yields_iff {Record Item : Type} {direction : Direction} {limit : ℕ}
    {positionOf : Record → ℕ} {records : List Record} {shows : Record → Item → Prop}
    {shown : Record → Prop} {fetch : Option ℕ → Except CoreError (Pagination Item ℕ)}
    {rowsFrom : Option ℕ → List Record}
    (lists : Paging.Lists fetch limit positionOf shows rowsFrom fun _ => True)
    (start : rowsFrom none = direction.arrange records)
    (each : ∀ record, (∃ item, shows record item) ↔ shown record) :
    Yields fetch (direction.arrange records) shows ↔ ∀ record ∈ records, shown record := by
  have follows := @Paging.Lists.follows_iff _ _ _ _ _ _ _ _ _ _ lists none trivial
  rw [start] at follows
  simp only [Direction.mem_arrange, each] at follows
  exact follows

variable {db : Db} {direction : Option Direction} {limit : Option ℕ}

theorem pageLimit_pos (positive : limit ≠ some 0) :
    0 < min (limit.getD MAX_ITERATOR_LIMIT) MAX_ITERATOR_LIMIT := by
  cases limit with
  | none => decide
  | some limit =>
      have nonzero : limit ≠ 0 := fun same => positive (by rw [same])
      exact lt_min (Nat.pos_of_ne_zero nonzero) (by decide)

/-! The five listings. -/

theorem pairwise_entries {Key Value : Type} [LinearOrder Key] {partition : Partition Key Value}
    {test : Key × Value → Bool} {before : Key × Value → Key × Value → Prop}
    (monotone : ∀ left ∈ partition.entries, ∀ right ∈ partition.entries,
      test left = true → test right = true → left.1 < right.1 → before left right) :
    (partition.entries.filter test).Pairwise before := by
  refine ((Partition.entries_ordered partition).filter test).imp_of_mem ?_
  intro left right inLeft inRight ordered
  obtain ⟨leftMember, leftTest⟩ := List.mem_filter.1 inLeft
  obtain ⟨rightMember, rightTest⟩ := List.mem_filter.1 inRight
  exact monotone left leftMember right rightMember leftTest rightTest ordered

theorem shownDeployments_ascending (single : db.OneDeploymentPerScore)
    (restrictedProtocols : List String) :
    (db.shownDeployments restrictedProtocols).Pairwise fun left right =>
      left.1.score < right.1.score := by
  refine pairwise_entries fun left leftMember right rightMember _ _ ordered => ?_
  obtain ⟨key, info⟩ := left
  obtain ⟨key', info'⟩ := right
  rcases DeploymentKey.lt_iff.1 ordered with lower | ⟨same, _⟩
  · exact lower
  · have equal := single key key' (by rw [Partition.mem_entries.1 leftMember]; rfl)
      (by rw [Partition.mem_entries.1 rightMember]; rfl) same
    exact absurd ordered (by rw [equal]; exact lt_irrefl _)

theorem shownDeployments_le (fits : db.KeysFit) {restrictedProtocols : List String} :
    ∀ entry ∈ db.shownDeployments restrictedProtocols, entry.1.score ≤ u64Max := by
  rintro ⟨key, info⟩ member
  have stored := Partition.mem_entries.1 (List.mem_of_mem_filter member)
  exact (fits.deployments key (by rw [stored]; rfl)).1

theorem krc721CollectionList_lists (fits : db.KeysFit) (single : db.OneDeploymentPerScore)
    (positive : limit ≠ some 0) :
    Paging.Lists (fun offset => accessor.krc721CollectionList db ⟨offset, direction, limit⟩)
      (min (limit.getD MAX_ITERATOR_LIMIT) MAX_ITERATOR_LIMIT) (fun entry => entry.1.score)
      (accessor.ShowsCollection db)
      ((direction.getD .forward).rowsFrom (fun entry => entry.1.score)
        (db.shownDeployments accessor.restrictedProtocols)) fun _ => True := by
  refine renderedBefore_lists (fun entry => db.collection entry.1 entry.2)
    (fun last => last.collection.opScoreAdded) accessor.collectionMetaWrapper (fun offset => ?_)
    (pageLimit_pos positive) ?_ (Direction.rowsFrom_resumes (shownDeployments_ascending single _))
    fun _ _ => Iff.rfl
  · simp only [krc721CollectionList, resolveU64IterArgs, Db.krc721CollectionList,
      Db.shownDeployments_eq fits, Direction.rowsFrom_start (shownDeployments_le fits)]
  · intro entry collection item found rendered
    have added : collection.opScoreAdded = entry.1.score := by
      unfold Db.collection at found
      split at found
      · cases found
        rfl
      · split at found
        · cases found
        · cases found
          rfl
    obtain ⟨_, _, rendered⟩ := bind_eq_ok.1 rendered
    obtain ⟨_, _, rendered⟩ := bind_eq_ok.1 rendered
    cases rendered
    exact added

theorem krc721DeploymentList_lists (fits : db.KeysFit) (single : db.OneDeploymentPerScore)
    (positive : limit ≠ some 0) :
    Paging.Lists (fun offset => accessor.krc721DeploymentList db ⟨offset, direction, limit⟩)
      (min (limit.getD MAX_ITERATOR_LIMIT) MAX_ITERATOR_LIMIT) (fun entry => entry.1.score)
      (fun entry item => accessor.scoredDeployInfoWithCommon entry.1.score entry.2 = .ok item)
      ((direction.getD .forward).rowsFrom (fun entry => entry.1.score)
        (db.shownDeployments accessor.restrictedProtocols)) fun _ => True := by
  refine renderedPage_lists (fun entry => .ok (entry.1.score, entry.2)) (fun entry => entry.1)
    (fun entry => accessor.scoredDeployInfoWithCommon entry.1 entry.2) (fun offset => ?_)
    (pageLimit_pos positive) ?_
    (Direction.rowsFrom_resumes (shownDeployments_ascending single _)) ?_
  · simp only [krc721DeploymentList, resolveU64IterArgs, Db.krc721DeploymentList,
      Db.shownDeployments_eq fits, Direction.rowsFrom_start (shownDeployments_le fits)]
  · rintro entry value found
    cases found
    rfl
  · simp

theorem krc721OpList_lists (fits : db.KeysFit) (positive : limit ≠ some 0) :
    Paging.Lists (fun offset => accessor.krc721OpList db ⟨offset, direction, limit⟩)
      (min (limit.getD MAX_ITERATOR_LIMIT) MAX_ITERATOR_LIMIT) (fun entry => entry.1)
      (fun entry item => accessor.operationMetaWrapper entry.1 entry.2 = .ok item)
      ((direction.getD .forward).rowsFrom (fun entry => entry.1) db.operationHistory.entries)
      fun _ => True := by
  have bounded : ∀ entry ∈ db.operationHistory.entries, entry.1 ≤ u64Max := by
    rintro ⟨score, op⟩ member
    exact fits.operations score (Partition.isSome_get_of_mem_entries member)
  refine renderedPage_lists .ok (fun entry => entry.1)
    (fun entry => accessor.operationMetaWrapper entry.1 entry.2) (fun offset => ?_)
    (pageLimit_pos positive) ?_ (Direction.rowsFrom_resumes (Partition.entries_ordered _)) ?_
  · simp only [krc721OpList, resolveU64IterArgs, Db.krc721OpList, Db.operationRows_eq,
      Direction.rowsFrom_start bounded]
  · rintro entry value found
    cases found
    rfl
  · simp

theorem krc721TokenList_lists (fits : db.KeysFit) (positive : limit ≠ some 0) (tick : Tick) :
    Paging.Lists (fun offset => accessor.krc721TokenList db tick ⟨offset, direction, limit⟩)
      (min (limit.getD MAX_ITERATOR_LIMIT) MAX_ITERATOR_LIMIT) (fun entry => entry.1.tokenId)
      (accessor.ShowsToken db tick)
      ((direction.getD .forward).rowsFrom (fun entry => entry.1.tokenId)
        (db.shownTokens tick accessor.restrictedProtocols)) fun _ => True := by
  have ascending : (db.shownTokens tick accessor.restrictedProtocols).Pairwise
      fun left right => left.1.tokenId < right.1.tokenId := by
    unfold Db.shownTokens
    split
    · exact .nil
    · refine pairwise_entries fun left _ right _ leftTick rightTick ordered => ?_
      simp only [decide_eq_true_eq] at leftTick rightTick
      rcases OwnershipKey.lt_iff.1 ordered with lower | ⟨_, lower⟩
      · rw [leftTick, rightTick] at lower
        exact absurd lower (lt_irrefl _)
      · exact lower
  have bounded : ∀ entry ∈ db.shownTokens tick accessor.restrictedProtocols,
      entry.1.tokenId ≤ u64Max := by
    rintro ⟨key, value⟩ member
    unfold Db.shownTokens at member
    split at member
    · cases member
    · have stored := Partition.mem_entries.1 (List.mem_of_mem_filter member)
      exact fits.tokens key (by rw [stored]; rfl)
  refine renderedPage_lists (fun entry => .ok ⟨entry.1.tokenId, entry.2.owner,
      entry.2.modTxScore, db.tokenListing tick entry.1.tokenId⟩)
    (fun ownership => ownership.tokenId) (accessor.token tick) (fun offset => ?_)
    (pageLimit_pos positive) ?_ (Direction.rowsFrom_resumes ascending) ?_
  · rw [← Direction.rowsFrom_start bounded]
    simp only [krc721TokenList, resolveU64IterArgs, Db.krc721TokenList, Db.shownTokens_eq fits,
      Db.shownTokens]
    cases db.shownCollection tick accessor.restrictedProtocols with
    | none => cases direction.getD .forward <;> rfl
    | some dinfo => rfl
  · rintro entry value found
    cases found
    rfl
  · simp [ShowsToken]

theorem historyOf_ascending {history : Partition OwnershipHistoryKey ScriptPublicKey}
    (scored : ∀ key, (history.get key).isSome → key.reversedScore ≤ u64Max) {tick : Tick}
    {tokenId : ℕ} :
    (history.entries.filter fun entry =>
        entry.1.tick = tick ∧ entry.1.tokenId = tokenId).reverse.Pairwise
      fun left right => u64Max - left.1.reversedScore < u64Max - right.1.reversedScore := by
  rw [List.pairwise_reverse]
  refine pairwise_entries fun left _ right rightMember leftToken rightToken ordered => ?_
  simp only [decide_eq_true_eq] at leftToken rightToken
  have bound := scored right.1 (by rw [Partition.mem_entries.1 rightMember]; rfl)
  rw [OwnershipHistoryKey.lt_iff, leftToken.1, leftToken.2, rightToken.1, rightToken.2] at ordered
  simp only [lt_self_iff_false, false_or, true_and] at ordered
  omega

theorem krc721TokenHistory_lists_of
    (scored : ∀ key, (db.ownershipHistory.get key).isSome → key.reversedScore ≤ u64Max)
    (positive : limit ≠ some 0) (tick : Tick) (tokenId : ℕ) :
    Paging.Lists (fun offset =>
        accessor.krc721TokenHistory db tick tokenId ⟨offset, direction, limit⟩)
      (min (limit.getD MAX_ITERATOR_LIMIT) MAX_ITERATOR_LIMIT)
      (fun entry => u64Max - entry.1.reversedScore) (accessor.ShowsHistory db)
      (fun offset => (direction.getD .forward).rowsFrom
        (fun entry => u64Max - entry.1.reversedScore)
        (db.shownHistory tick tokenId accessor.restrictedProtocols)
        (offset.map (min · u64Max))) fun _ => True := by
  have stored : ∀ entry ∈ db.shownHistory tick tokenId accessor.restrictedProtocols,
      entry.1.reversedScore ≤ u64Max := by
    rintro ⟨key, owner⟩ member
    unfold Db.shownHistory at member
    split at member
    · cases member
    · have stored := Partition.mem_entries.1 (List.mem_of_mem_filter (List.mem_reverse.1 member))
      exact scored key (by rw [stored]; rfl)
  have ascending : (db.shownHistory tick tokenId accessor.restrictedProtocols).Pairwise
      fun left right => u64Max - left.1.reversedScore < u64Max - right.1.reversedScore := by
    unfold Db.shownHistory
    split
    · exact .nil
    · exact historyOf_ascending scored
  refine renderedPage_lists (fun entry => db.tokenHistoryRecord entry.1 entry.2)
    (fun record => record.modTxScore) accessor.historyEntity (fun offset => ?_)
    (pageLimit_pos positive) ?_ ?_ fun _ _ => Iff.rfl
  · have start : (direction.getD .forward).rowsFrom (fun entry => u64Max - entry.1.reversedScore)
          (db.shownHistory tick tokenId accessor.restrictedProtocols) (offset.map (min · u64Max)) =
        (direction.getD .forward).rowsFrom (fun entry => u64Max - entry.1.reversedScore)
          (db.shownHistory tick tokenId accessor.restrictedProtocols)
          (some (min (offset.getD (direction.getD .forward).start) u64Max)) := by
      rw [← Direction.rowsFrom_start (fun entry _ => Nat.sub_le _ _)]
      cases offset with
      | some position => rfl
      | none => cases direction.getD .forward <;> rfl
    rw [start]
    simp only [krc721TokenHistory, resolveU64IterArgs, Db.krc721TokenHistoryList_eq,
      Db.shownHistory_eq scored, Db.shownHistory]
    cases db.shownCollection tick accessor.restrictedProtocols with
    | none => cases direction.getD .forward <;> rfl
    | some dinfo => rfl
  · intro entry record found
    simp only [Db.tokenHistoryRecord] at found
    split at found
    · cases found
    · cases found
      rfl
  · intro offset before row after split
    have resumed := Direction.rowsFrom_resumes ascending split
    rwa [Option.map_some, min_eq_left (Nat.sub_le _ _)]

theorem krc721TokenHistory_lists (fits : db.KeysFit) (positive : limit ≠ some 0) (tick : Tick)
    (tokenId : ℕ) :
    Paging.Lists (fun offset =>
        accessor.krc721TokenHistory db tick tokenId ⟨offset, direction, limit⟩)
      (min (limit.getD MAX_ITERATOR_LIMIT) MAX_ITERATOR_LIMIT)
      (fun entry => u64Max - entry.1.reversedScore) (accessor.ShowsHistory db)
      (fun offset => (direction.getD .forward).rowsFrom
        (fun entry => u64Max - entry.1.reversedScore)
        (db.shownHistory tick tokenId accessor.restrictedProtocols)
        (offset.map (min · u64Max))) fun _ => True :=
  krc721TokenHistory_lists_of fits.history positive tick tokenId

/-- The walks of a database whose keys are in range. -/
theorem walks_yield (fits : db.KeysFit) (single : db.OneDeploymentPerScore)
    (positive : limit ≠ some 0) : WalksYield accessor db direction limit where
  collectionList := yields_iff (krc721CollectionList_lists fits single positive)
    (Direction.rowsFrom_none _ _ _) fun _ => exists_showsCollection
  deploymentList := yields_iff (krc721DeploymentList_lists fits single positive)
    (Direction.rowsFrom_none _ _ _) fun _ => exists_scoredDeployInfoWithCommon
  opList := yields_iff (krc721OpList_lists fits positive) (Direction.rowsFrom_none _ _ _)
    fun _ => exists_operationMetaWrapper
  tokenList tick := yields_iff (krc721TokenList_lists fits positive tick)
    (Direction.rowsFrom_none _ _ _) fun _ => exists_token
  tokenHistory tick tokenId := yields_iff (krc721TokenHistory_lists fits positive tick tokenId)
    (Direction.rowsFrom_none _ _ _) fun _ => exists_showsHistory

end Accessor

/-! A listing of tokens that cannot be walked. -/

namespace Sample

def accessor : Accessor where
  extractScriptPubKeyAddress := Ascii.extractScriptPubKeyAddress
  addressText := Ascii.addressText
  addressPrefix := .mainnet
  restrictedProtocols := ["ipfs"]

theorem forall_get_of_entries {Key Value : Type} [LinearOrder Key]
    {partition : Partition Key Value} {kept : Key → Prop}
    (rows : ∀ entry ∈ partition.entries, kept entry.1) (key : Key)
    (present : (partition.get key).isSome) : kept key := by
  obtain ⟨value, stored⟩ := Option.isSome_iff_exists.1 present
  exact rows (key, value) (Partition.mem_entries.2 stored)

theorem oddSold_fits : oddSold.KeysFit where
  operations := forall_get_of_entries (by decide +kernel)
  deployments := forall_get_of_entries (by decide +kernel)
  tokens := forall_get_of_entries (by decide +kernel)
  history := forall_get_of_entries (by decide +kernel)

theorem oddSold_single : oddSold.OneDeploymentPerScore := by
  have one : ∀ key, (oddSold.collectionDeployments.get key).isSome → key = ⟨2000, tick⟩ :=
    forall_get_of_entries (by decide +kernel)
  intro key key' present present' _
  rw [one key present, one key' present']

theorem isShown_iff {spk : ScriptPublicKey} : accessor.IsShown spk ↔ spk.IsAddress :=
  @Ascii.extractScriptPubKeyAddress_iff spk .mainnet

theorem oddSold_shown : (offerKey, ⟨oddBuyer, 2002⟩) ∈
    oddSold.shownTokens tick accessor.restrictedProtocols := by
  have collection : (oddSold.shownCollection tick accessor.restrictedProtocols).isSome := by
    decide +kernel
  obtain ⟨dinfo, found⟩ := Option.isSome_iff_exists.1 collection
  simp only [Db.shownTokens, found]
  exact List.mem_filter.2 ⟨Partition.mem_entries.2 oddSold_owner, decide_eq_true rfl⟩

end Sample

theorem Accessor.walks_yield_oddSold :
    WalksYield Sample.accessor Sample.oddSold (some .backward) (some 1) :=
  Accessor.walks_yield Sample.oddSold_fits Sample.oddSold_single (by decide)

/-- The walk over the tokens of a collection does not get past the token of the odd buyer. -/
theorem Accessor.not_yields_oddSold :
    UnforkedDetectedRun Sample.crates Sample.analyzer
        {Sample.deployment, Sample.listing, Sample.oddSale} Sample.oddSold ∧
      Sample.oddSold.OneDeploymentPerScore ∧
      ¬ Yields (fun offset => Sample.accessor.krc721TokenList Sample.oddSold Sample.tick
          ⟨offset, some .forward, some 1⟩)
        (Direction.forward.arrange
          (Sample.oddSold.shownTokens Sample.tick Sample.accessor.restrictedProtocols))
        (Sample.accessor.ShowsToken Sample.oddSold Sample.tick) := by
  refine ⟨Sample.oddSold_run, Sample.oddSold_single, fun yields => ?_⟩
  obtain ⟨items, _, shown⟩ := yields
  obtain ⟨item, rendered⟩ := Paging.exists_of_forall₂ shown Sample.oddSold_shown
  exact Sample.not_isAddress_oddBuyer
    (Sample.isShown_iff.1 (Accessor.exists_token.1 ⟨item, rendered⟩))

end Krc721
