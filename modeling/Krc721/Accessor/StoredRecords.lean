import Krc721.Accessor.Walks
import Krc721.Market.Owners
import Krc721.View.TokenProperties

/-! Stored records that cannot be shown. A script that is no address makes every page with it
fail, and the buyer of a send is the one script that the analyzer takes as it is. -/

set_option autoImplicit false

namespace Krc721

open OrderedStore SymbolStream

namespace Accessor

/-- `extract_script_pub_key_address` knows the three address scripts only. -/
def ExtractsAddresses (accessor : Accessor) : Prop :=
  ∀ spk, accessor.IsShown spk ↔ spk.IsAddress

/-- No record of the database makes one of these endpoints fail. -/
structure NeverFails (accessor : Accessor) (db : Db) : Prop where
  tokenList : ∀ tick iterArgs, ∃ page, accessor.krc721TokenList db tick iterArgs = .ok page
  opList : ∀ iterArgs, ∃ page, accessor.krc721OpList db iterArgs = .ok page
  opByScore : ∀ score, ∃ op, accessor.krc721OpByScore db score = .ok op
  tokenLookup : ∀ tick tokenId, ∃ token, accessor.krc721TokenLookup db tick tokenId = .ok token
  tokenHistory : ∀ tick tokenId iterArgs, ∃ page,
    accessor.krc721TokenHistory db tick tokenId iterArgs = .ok page

end Accessor

theorem OperationInfo.royaltyTo_subset (info : OperationInfo) :
    info.royaltyTo.toList ⊆ info.scripts := by
  cases info <;> simp [royaltyTo, scripts]

theorem OperationInfo.recipient_subset (info : OperationInfo) :
    info.recipient.toList ⊆ info.scripts := by
  cases info <;> simp [recipient, scripts]

theorem Operation.buyer_shown {operation : Operation} {info : SendInfo} {buyer : ScriptPublicKey}
    (kind : operation.info = .send info) (toBuyer : info.buyer = some buyer) :
    buyer ∈ operation.shownScripts := by
  simp [shownScripts, kind, OperationInfo.royaltyTo, OperationInfo.recipient, toBuyer]

namespace Db

variable {db : Db}

theorem operationRows_stored {args : IteratorArgs ℕ} {entry : ℕ × CheckedOperation}
    (member : entry ∈ db.operationRows args) :
    db.operationHistory.get entry.1 = some entry.2 := by
  unfold operationRows at member
  split at member
  · exact (Partition.mem_entriesFrom.1 member).1
  · exact Partition.mem_entries.1 (List.mem_of_mem_filter (List.mem_reverse.1 member))

theorem ownershipRows_stored {tick : Tick} {args : IteratorArgs ℕ}
    {entry : OwnershipKey × CurrentOwnershipValue} (member : entry ∈ db.ownershipRows tick args) :
    db.currentOwnership.get entry.1 = some entry.2 := by
  unfold ownershipRows at member
  split at member
  · exact (Partition.mem_entriesFrom.1 (List.mem_of_mem_filter member)).1
  · exact (Partition.mem_entriesFrom.1 (List.mem_of_mem_filter (List.mem_reverse.1 member))).1

end Db

namespace Accessor

variable {accessor : Accessor} {db : Db}

theorem neverFails_of_shown
    (logged : ∀ score checked, db.operationHistory.get score = some checked →
      ∀ spk ∈ checked.operation.shownScripts, accessor.IsShown spk)
    (owned : ∀ token current, db.currentOwnership.get token = some current →
      accessor.IsShown current.owner)
    (owners : ∀ key owner, db.ownershipHistory.get key = some owner →
      accessor.IsShown owner ∧ (db.operationHistory.get (u64Max - key.reversedScore)).isSome) :
    accessor.NeverFails db where
  tokenList := by
    intro tick iterArgs
    simp only [krc721TokenList, Db.krc721TokenList]
    cases db.shownCollection tick accessor.restrictedProtocols with
    | none => exact ⟨_, rfl⟩
    | some dinfo =>
        refine renderedPage_ok _ _ fun entry member => ?_
        have shown := owned _ _ (Db.ownershipRows_stored member)
        obtain ⟨item, rendered⟩ := (@exists_token accessor tick ⟨entry.1.tokenId, entry.2.owner,
          entry.2.modTxScore, db.tokenListing tick entry.1.tokenId⟩).2 shown
        exact ⟨item, _, rfl, rendered⟩
  opList := by
    intro iterArgs
    simp only [krc721OpList, Db.krc721OpList]
    refine renderedPage_ok _ _ fun entry member => ?_
    obtain ⟨item, rendered⟩ :=
      exists_operationMetaWrapper.2 (logged _ _ (Db.operationRows_stored member))
    exact ⟨item, _, rfl, rendered⟩
  opByScore := by
    intro score
    unfold krc721OpByScore Db.krc721OpByScore
    cases stored : db.operationHistory.get score with
    | none => exact ⟨none, rfl⟩
    | some checked =>
        obtain ⟨item, rendered⟩ :=
          @exists_operationMetaWrapper accessor score checked |>.2 (logged _ _ stored)
        simp only [rendered]
        exact ⟨_, rfl⟩
  tokenLookup := by
    intro tick tokenId
    unfold krc721TokenLookup Db.krc721TokenLookup
    cases current : db.currentOwnership.get ⟨tick, tokenId⟩ with
    | none => exact ⟨none, rfl⟩
    | some value =>
        cases db.shownCollection tick accessor.restrictedProtocols with
        | none => exact ⟨none, rfl⟩
        | some dinfo =>
            obtain ⟨item, rendered⟩ := (@exists_token accessor tick ⟨tokenId, value.owner,
              value.modTxScore, db.tokenListing tick tokenId⟩).2 (owned _ _ current)
            simp only [rendered]
            exact ⟨_, rfl⟩
  tokenHistory := by
    intro tick tokenId iterArgs
    simp only [krc721TokenHistory, Db.krc721TokenHistoryList_eq]
    cases db.shownCollection tick accessor.restrictedProtocols with
    | none => exact ⟨_, rfl⟩
    | some dinfo =>
        refine renderedPage_ok _ _ fun entry member => ?_
        obtain ⟨shown, present⟩ := owners _ _ (Db.historyRows_stored member)
        exact exists_showsHistory.2 ⟨present, shown⟩

/-- In every database of a run no endpoint fails exactly if the logged sends all pay address
scripts. -/
theorem neverFails_iff {crates : Crates} {analyzer : Analyzer} {chain : Set ContextTransaction}
    (extracts : accessor.ExtractsAddresses) (pays : crates.PaysToAddresses)
    (run : UnforkedDetectedRun crates analyzer chain db) :
    accessor.NeverFails db ↔ db.SendsToAddresses := by
  constructor
  · intro never score checked info buyer stored kind toBuyer
    obtain ⟨op, found⟩ := never.opByScore score
    simp only [krc721OpByScore, Db.krc721OpByScore, stored] at found
    cases rendered : accessor.operationMetaWrapper score checked with
    | error error =>
        simp only [rendered] at found
        cases found
    | ok item =>
        have shown := exists_operationMetaWrapper.1 ⟨item, rendered⟩
        exact (extracts buyer).1 (shown buyer (Operation.buyer_shown kind toBuyer))
  · intro sends
    have history : ∀ key owner, db.ownershipHistory.get key = some owner →
        accessor.IsShown owner := fun key owner stored =>
      (extracts owner).2 (run.owner_isAddress pays sends stored)
    refine neverFails_of_shown ?_ ?_ ?_
    · intro score checked stored spk member
      obtain ⟨sender, scripts⟩ := run.logged_scripts pays sends stored
      refine (extracts spk).2 ?_
      rcases List.mem_cons.1 member with rfl | others
      · exact sender
      · rcases List.mem_append.1 others with royaltyTo | recipient
        · exact scripts spk (OperationInfo.royaltyTo_subset _ royaltyTo)
        · exact scripts spk (OperationInfo.recipient_subset _ recipient)
    · intro token current owned
      obtain ⟨key, stored⟩ := run.unforkedReachable.owner_stored owned
      exact history _ _ stored
    · intro key owner stored
      exact ⟨history _ _ stored,
        run.unforkedReachable.no_broken_reference.historyLogged (by rw [stored]; rfl)⟩

end Accessor

theorem Sample.extractsAddresses : Sample.accessor.ExtractsAddresses := fun _ => Sample.isShown_iff

theorem Accessor.neverFails_iff_oddSold :
    Sample.accessor.NeverFails Sample.oddSold ↔ Sample.oddSold.SendsToAddresses :=
  Accessor.neverFails_iff Sample.extractsAddresses Sample.paysToAddresses Sample.oddSold_run

/-- The sale to the odd buyer can be asked for by its score, with an error as the answer. -/
theorem Accessor.not_neverFails_oddSold :
    UnforkedDetectedRun Sample.crates Sample.analyzer
        {Sample.deployment, Sample.listing, Sample.oddSale} Sample.oddSold ∧
      Sample.accessor.ExtractsAddresses ∧ Sample.crates.PaysToAddresses ∧
      (∃ error, Sample.accessor.krc721OpByScore Sample.oddSold 2002 = .error error) ∧
      ¬ Sample.accessor.NeverFails Sample.oddSold := by
  have noItem : ∀ item, Sample.accessor.operationMetaWrapper 2002
      ⟨Sample.oddSaleOperation, none⟩ ≠ .ok item := by
    intro item rendered
    have shown := Accessor.exists_operationMetaWrapper.1 ⟨item, rendered⟩
    exact Sample.not_isAddress_oddBuyer
      (Sample.isShown_iff.1 (shown Sample.oddBuyer (Operation.buyer_shown rfl rfl)))
  have fails : ∃ error, Sample.accessor.krc721OpByScore Sample.oddSold 2002 = .error error := by
    unfold Accessor.krc721OpByScore Db.krc721OpByScore
    rw [Sample.oddSold_logged]
    cases rendered : Sample.accessor.operationMetaWrapper 2002
        ⟨Sample.oddSaleOperation, none⟩ with
    | error error =>
        simp only [rendered]
        exact ⟨_, rfl⟩
    | ok item => exact absurd rendered (noItem item)
  refine ⟨Sample.oddSold_run, Sample.extractsAddresses, Sample.paysToAddresses, fails, ?_⟩
  intro never
  obtain ⟨error, failed⟩ := fails
  obtain ⟨op, found⟩ := never.opByScore 2002
  rw [failed] at found
  cases found

end Krc721
