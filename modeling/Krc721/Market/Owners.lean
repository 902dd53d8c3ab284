import Krc721.Analyzer.Addresses
import Krc721.Market.ListingUtxo

/-! The owners of tokens. Each of them is a script of the operation that is logged at the score
of its row, and of these only the buyer of a send may be no address script. -/

set_option autoImplicit false

namespace Krc721

open OrderedStore

/-- Every owner of the history is a script of the operation that is logged at its score. -/
def Ledger.OwnersNamed (ledger : Ledger) : Prop :=
  ∀ key owner, ledger.ownershipHistory.get key = some owner →
    ∃ checked, ledger.operationHistory.get (u64Max - key.reversedScore) = some checked ∧
      owner ∈ checked.operation.info.scripts

/-- Every buyer of a logged send is an address script. -/
def LogStore.SendsToAddresses (log : LogStore) : Prop :=
  ∀ score checked info buyer, log.operationHistory.get score = some checked →
    checked.operation.info = .send info → info.buyer = some buyer → buyer.IsAddress

theorem Partition.get_insert_history {history : Partition OwnershipHistoryKey ScriptPublicKey}
    {tick : Tick} {tokenId score : ℕ} {toSpk owner : ScriptPublicKey} {key : OwnershipHistoryKey}
    (stored : (history.insert (.withScore tick tokenId score) toSpk).get key = some owner) :
    history.get key = some owner ∨ key.reversedScore = u64Max - score ∧ owner = toSpk := by
  rw [Partition.get_insert] at stored
  split at stored
  · rename_i same
    subst same
    cases stored
    exact .inr ⟨rfl, rfl⟩
  · exact .inl stored

theorem OwnershipStore.premints_history {store : OwnershipStore} {tick : Tick}
    {score seq count : ℕ} {toSpk owner : ScriptPublicKey} {key : OwnershipHistoryKey}
    (stored : (store.premints tick score toSpk seq count).ownershipHistory.get key = some owner) :
    store.ownershipHistory.get key = some owner ∨
      key.reversedScore = u64Max - score ∧ owner = toSpk := by
  induction count generalizing store seq with
  | zero => exact .inl stored
  | succ count ih =>
      rcases ih stored with earlier | fresh
      · exact Partition.get_insert_history earlier
      · exact .inr fresh

/-- The new owners of an operation are scripts that it names. -/
theorem Applied.history_owner {kaspa : Kaspa} {db db' : Db} {context : ContextOperation}
    {checked : CheckedOperation} (applied : Applied kaspa db context db' checked)
    {key : OwnershipHistoryKey} {owner : ScriptPublicKey}
    (stored : db'.ownershipHistory.get key = some owner) :
    db.ownershipHistory.get key = some owner ∨
      key.reversedScore = u64Max - context.txScore ∧ owner ∈ checked.operation.info.scripts := by
  cases applied with
  | rejected error => exact .inl stored
  | deployed info kind free =>
      refine (OwnershipStore.premints_history stored).imp_right (And.imp_right ?_)
      rintro rfl
      simp [kind, OperationInfo.scripts]
  | minted info entry ids tokenId ranges kind found mint supply =>
      refine (Partition.get_insert_history stored).imp_right (And.imp_right ?_)
      rintro rfl
      simp [OperationInfo.scripts]
  | transferred info current kind owned bySender unlisted =>
      refine (Partition.get_insert_history stored).imp_right (And.imp_right ?_)
      rintro rfl
      simp [kind, OperationInfo.scripts]
  | discounted info entry kind found byDeployer lower => exact .inl stored
  | listed info current kind owned bySender unlisted locked => exact .inl stored
  | sold info listing buyer kind found spends toBuyer =>
      refine (Partition.get_insert_history stored).imp_right (And.imp_right ?_)
      rintro rfl
      simp [kind, OperationInfo.scripts, toBuyer]
  | cancelled info listing kind found spends noBuyer => exact .inl stored

theorem Replay.ownersNamed {kaspa : Kaspa} {bound : ℕ} {ledger : Ledger}
    (replay : Replay kaspa bound ledger) : ledger.OwnersNamed := by
  induction replay with
  | empty =>
      intro key owner stored
      simp at stored
  | @step bound db db' context checked earlier reached le sound fresh applied ih =>
      intro key owner stored
      have sameLog : db'.operationHistory = db.operationHistory :=
        congrArg LogStore.operationHistory applied.frame.1
      simp only [Db.recordOperation, Partition.get_insert, sameLog]
      rcases applied.history_owner stored with kept | ⟨reversed, named⟩
      · obtain ⟨older, logged, named⟩ := ih key owner kept
        have low := earlier.wf.operation_lt logged
        rw [if_neg (by omega)]
        exact ⟨older, logged, named⟩
      · rw [if_pos (by omega)]
        exact ⟨checked, rfl, named⟩

theorem UnforkedReachable.owner_stored {kaspa : Kaspa} {db : Db}
    (reachable : UnforkedReachable kaspa db)
    {token : OwnershipKey} {current : CurrentOwnershipValue}
    (owned : db.currentOwnership.get token = some current) :
    ∃ key, db.ownershipHistory.get key = some current.owner :=
  ⟨_, ((reachable.ownership token.tick token.tokenId).newest owned).1⟩

namespace UnforkedDetectedRun

variable {crates : Crates} {analyzer : Analyzer} {chain : Set ContextTransaction} {db : Db}

/-- If the sends pay address scripts, then every script of a logged operation is one. -/
theorem logged_scripts (pays : crates.PaysToAddresses)
    (run : UnforkedDetectedRun crates analyzer chain db) (sends : db.SendsToAddresses) {score : ℕ}
    {checked : CheckedOperation} (stored : db.operationHistory.get score = some checked) :
    checked.operation.common.sender.IsAddress ∧
      ∀ spk ∈ checked.operation.info.scripts, spk.IsAddress := by
  obtain ⟨operation, ⟨sigtx, _, detected⟩, common, sameInfo⟩ := run.logged _ _ stored
  obtain ⟨sender, scripts⟩ := Analyzer.detected_scripts pays detected
  refine ⟨common ▸ sender, ?_⟩
  rcases sameInfo with same | ⟨info, tokenId, kind, minted⟩
  · rw [same]
    cases kind : operation.info with
    | send info =>
        intro spk member
        exact sends score checked info spk stored (same.trans kind) (Option.mem_toList.1 member)
    | _ =>
        rw [← kind]
        exact scripts (by simp [kind])
  · rw [minted]
    rw [kind] at scripts
    exact scripts (by simp)

/-- If the sends pay address scripts, then every owner is one. -/
theorem owner_isAddress (pays : crates.PaysToAddresses)
    (run : UnforkedDetectedRun crates analyzer chain db) (sends : db.SendsToAddresses)
    {key : OwnershipHistoryKey} {owner : ScriptPublicKey}
    (stored : db.ownershipHistory.get key = some owner) : owner.IsAddress := by
  obtain ⟨bound, replay⟩ := run.consistent.replay
  obtain ⟨checked, logged, named⟩ := replay.ownersNamed key owner stored
  exact (run.logged_scripts pays sends logged).2 owner named

end UnforkedDetectedRun

/-! A sale to a script that no address pays to. -/

namespace Sample

/-- The script of bob and one more byte. -/
def oddBuyer : ScriptPublicKey := ⟨0, bob.script ++ [65]⟩

/-- The listed token is sent to the odd script. -/
def oddSale : ContextTransaction :=
  inscribing 3 ⟨2, 0⟩ (Ascii.tokenFields "send" "A" 1) 0 [⟨50, alice⟩, ⟨20, oddBuyer⟩]

def oddSaleOperation : Operation :=
  ⟨⟨tick, 3, 0, alice, 0, 20⟩, .send ⟨1, 50, some oddBuyer, 2⟩⟩

theorem oddSale_detected :
    analyzer.detectKrc721 crates oddSale = .ok (some oddSaleOperation) := by
  have unquoted : Ascii.Unquoted (Ascii.tokenFields "send" "A" 1) :=
    Ascii.unquoted_tokenFields (by decide) (by decide) 1
  have operation : Ascii.userOperationOf (Ascii.tokenFields "send" "A" 1) =
      some (sendOperation 1 tick) := by
    have read : Tick.deserialize Ascii.unicode "A" = .ok tick := deserialize_tick
    rw [@Ascii.userOperationOf_tokenFields "send" .send rfl "A" 1 (by decide), read]
    rfl
  have parsed : Tick.fromStr crates.unicode tick.asStr = .ok tick :=
    Tick.IsValid.fromStr_asStr ⟨"A", fromStr_tick⟩ unicodeLaws
  have payloadMax :
      (utf8 (String.ofList (Ascii.objectText (Ascii.tokenFields "send" "A" 1)))).length ≤ 250 := by
    decide +kernel
  have nonempty : Ascii.tokenFields "send" "A" 1 ≠ [] := List.cons_ne_nil _ _
  have asks : analyzer.infoOf crates oddSale (sendOperation 1 tick) none alice alice tick =
      .ok oddSaleOperation.info := rfl
  exact inscribing_detected nonempty unquoted operation rfl rfl payloadMax
    (Ascii.headed_objectText _ _) parsed asks

/-- The block with the deployment, the listing and the sale. -/
def oddBlock : Mergeset where
  operations := [⟨0, 0, deployOperation⟩, ⟨0, 1, listOperation⟩, ⟨0, 2, oddSaleOperation⟩]
  entropy := 5
  blueScore := 1
  acceptedChainBlockHash := 101

theorem oddBlock_valid : oddBlock.Valid market where
  within := by decide
  ascending := by decide
  distinct := by decide
  sound := by
    simp only [oddBlock, deployOperation, listOperation, oddSaleOperation, Operation.Sound,
      List.forall_mem_cons, OperationInfo.deploy.injEq, forall_eq', reduceCtorEq, false_implies,
      implies_true, List.not_mem_nil, and_true]
    exact ⟨by decide, by decide⟩
  fits := by decide

theorem oddBlock_admissible : Admissible market .new [oddBlock] where
  valid := by simpa using oddBlock_valid
  ascending := by decide
  unforked := .new _

def oddSold : Db :=
  match processAdditions market .new [oddBlock] with
  | .ok (db, _) => db
  | .error _ => .new

theorem oddSold_run :
    UnforkedDetectedRun crates analyzer {deployment, listing, oddSale} oddSold := by
  obtain ⟨diff, success⟩ : ∃ diff, processAdditions market .new [oddBlock] = .ok (oddSold, diff) :=
    ⟨_, rfl⟩
  apply UnforkedRun.added .new oddBlock_admissible _ success
  simp only [Analyzer.Detects, List.forall_mem_cons, oddBlock, List.not_mem_nil, false_implies,
    implies_true, and_true]
  exact ⟨⟨deployment, .inl rfl, deployment_detected⟩, ⟨listing, .inr (.inl rfl), listing_detected⟩,
    ⟨oddSale, .inr (.inr rfl), oddSale_detected⟩⟩

theorem oddSold_owner : oddSold.currentOwnership.get offerKey = some ⟨oddBuyer, 2002⟩ := by
  decide +kernel

theorem oddSold_logged :
    oddSold.operationHistory.get 2002 = some ⟨oddSaleOperation, none⟩ := by
  decide +kernel

theorem paysToAddresses : crates.PaysToAddresses := by
  intro text address parsed
  cases parsed

theorem not_isAddress_oddBuyer : ¬ oddBuyer.IsAddress := by
  intro address
  have same : oddBuyer.script.length = bob.script.length :=
    address.length_eq (.pubKey _ List.length_replicate) rfl
  exact absurd same (by decide)

end Sample

end Krc721
