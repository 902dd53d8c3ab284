import Krc721.Analyzer.Addresses
import Krc721.Market.ListingUtxo
import Krc721.Processor.Discounts

/-! The royalty fee of an address: the newest accepted discount of the log, what a mint is asked
to pay, and what the read view reports. -/

set_option autoImplicit false

namespace Krc721

open OrderedStore SymbolStream

def Db.krc721RoyaltyFee (db : Db) (spk : ScriptPublicKey) (tick : Tick)
    (restrictedProtocols : List String) : Option ℕ :=
  match db.collectionRegistry.get tick with
  | none => none
  | some collection =>
      if collection.info.info.metadata.hasIncompatibleUriPrefix restrictedProtocols then none
      else (lastFee db.vip spk tick).or (collection.info.info.royalty.map (·.fee))

/-- The fee of the accepted discount with the largest score. -/
def LogStore.LastDiscount (log : LogStore) (tick : Tick) (spk : ScriptPublicKey) (fee : ℕ) : Prop :=
  ∃ score, log.Discounted tick spk score fee ∧
    ∀ other otherFee, log.Discounted tick spk other otherFee → other ≤ score

/-- The last discount, or the full fee of a collection that gave none. -/
def LogStore.EffectiveFee (log : LogStore) (tick : Tick) (spk : ScriptPublicKey)
    (full fee : ℕ) : Prop :=
  log.LastDiscount tick spk fee ∨ fee = full ∧ ∀ score other, ¬ log.Discounted tick spk score other

/-- The first output pays at least the fee to the beneficiary. -/
def ContextTransaction.PaysFirst (sigtx : ContextTransaction) (fee : ℕ)
    (beneficiary : ScriptPublicKey) : Prop :=
  ∃ output, sigtx.tx.outputs.head? = some output ∧ fee ≤ output.value ∧
    output.scriptPublicKey = beneficiary

def CtxValidationError.IsRoyalty (error : CtxValidationError) : Prop :=
  error = .insufficientRoyaltyFee ∨ error = .invalidBeneficiaryForRoyaltyMintFee ∨
    error = .missingRoyaltyMintFee

def RefusedForRoyalty (outcome : Except Fault (Db × Except CtxValidationError MintInfo)) : Prop :=
  ∃ db error, outcome = .ok (db, .error error) ∧ error.IsRoyalty

/-- The fee of an address is its effective one, in what is reported and in what is demanded. -/
structure EffectiveRoyalty (db : Db) (tick : Tick) (entry : ScoredDeployInfoWithCommon)
    (royalty : RoyaltyDetails) (spk : ScriptPublicKey) (fee : ℕ) : Prop where
  effective : db.EffectiveFee tick spk royalty.fee fee
  atMost : fee ≤ royalty.fee
  reported : ∀ restrictedProtocols, db.krc721RoyaltyFee spk tick restrictedProtocols =
    if entry.info.info.metadata.hasIncompatibleUriPrefix restrictedProtocols then none
    else some fee
  demanded : ∀ (crates : Crates) (analyzer : Analyzer) (sigtx : ContextTransaction)
    (operation : Operation) (info : MintInfo) (mergesetEntropy score : ℕ),
    analyzer.detectKrc721 crates sigtx = .ok (some operation) → operation.info = .mint info →
    operation.common.tick = tick → info.toSpk = spk →
    entry.info.info.mintStartDaa ≤ operation.common.acceptingBlockDaaScore →
    entry.info.info.max ≠ 0 →
    entry.info.info.premint ≤ (db.lastMintedTokenSeqNo tick).getD 0 →
    (RefusedForRoyalty (processMint db mergesetEntropy score operation.common info false) ↔
      ¬ sigtx.PaysFirst fee royalty.beneficiary)

/-! The key range of an address. -/

namespace VipKey

variable {spk : ScriptPublicKey} {tick : Tick}

theorem lt_iff {tick' : Tick} {reversed reversed' fee fee' : ℕ} :
    (⟨spk, tick, reversed, fee⟩ : VipKey) < ⟨spk, tick', reversed', fee'⟩ ↔
      tick < tick' ∨ tick = tick' ∧
        (reversed < reversed' ∨ reversed = reversed' ∧ fee < fee') := by
  change ownedKey _ < ownedKey _ ↔ _
  rw [ownedKey, ownedKey, append_lt_append_iff _ _ rfl, TickBytes.append_lt_iff,
    toBeBytes_append_lt_iff, toBeBytes_lt_toBeBytes_iff (by decide)]
  simp

theorem between_iff {key : VipKey} (keyAddress : key.spk.IsAddress) (address : spk.IsAddress)
    (fits : key.spk = spk → key.tick = tick → key.fee < u64Max)
    (reversedLe : key.reversedScore ≤ u64Max) :
    (⟨spk, tick, 0, 0⟩ ≤ key ∧ key < ⟨spk, tick, u64Max, u64Max⟩) ↔
      key.spk = spk ∧ key.tick = tick := by
  obtain ⟨spk', tick', reversed, fee⟩ := key
  simp only at keyAddress fits reversedLe ⊢
  constructor
  · rintro ⟨above, below⟩
    have same : spk = spk' := address.eq_of_prefix keyAddress (prefix_of_between above below.le)
    subst same
    rw [← not_lt, lt_iff] at above
    rw [lt_iff] at below
    refine ⟨rfl, ?_⟩
    rcases below with below | ⟨same, _⟩
    · exact absurd (.inl below) above
    · exact same
  · rintro ⟨rfl, rfl⟩
    have small := fits rfl rfl
    rw [← not_lt, lt_iff, lt_iff]
    refine ⟨by simp, .inr ⟨rfl, ?_⟩⟩
    omega

end VipKey

/-! The last fee. -/

namespace Replay

variable {kaspa : Kaspa} {bound : ℕ} {ledger : Ledger} {tick : Tick} {spk : ScriptPublicKey}

/-- The first row of the range is the newest discount. -/
theorem effectiveFee (replay : Replay kaspa bound ledger)
    (recipients : ∀ tick spk score fee, ledger.Discounted tick spk score fee → spk.IsAddress)
    (fits : ∀ score fee, ledger.Discounted tick spk score fee → fee < u64Max)
    (address : spk.IsAddress) (full : ℕ) :
    ledger.EffectiveFee tick spk full ((lastFee ledger.vip spk tick).getD full) := by
  have row (key : VipKey) : (ledger.vip.get key).isSome ↔ _ := replay.isSome_vip_iff
  have range : ∀ key, (ledger.vip.get key).isSome →
      ((decide (⟨spk, tick, 0, 0⟩ ≤ key) && decide (key < ⟨spk, tick, u64Max, u64Max⟩)) = true ↔
        key.spk = spk ∧ key.tick = tick) := by
    intro key present
    obtain ⟨score, le, reversed, held⟩ := (row key).1 present
    rw [Bool.and_eq_true, decide_eq_true_eq, decide_eq_true_eq]
    refine VipKey.between_iff (recipients _ _ _ _ held) address ?_ (by omega)
    intro sameSpk sameTick
    rw [sameSpk, sameTick] at held
    exact fits _ _ held
  have present (score fee : ℕ) (held : ledger.Discounted tick spk score fee) :
      (ledger.vip.get ⟨spk, tick, u64Max - score, fee⟩).isSome :=
    (row _).2 ⟨score, (replay.discounted_lt held).1, rfl, held⟩
  cases first : ledger.vip.firstWhere fun key =>
      decide (⟨spk, tick, 0, 0⟩ ≤ key) && decide (key < ⟨spk, tick, u64Max, u64Max⟩) with
  | none =>
      have noFee : lastFee ledger.vip spk tick = none := by rw [lastFee, first, Option.map_none]
      rw [noFee]
      refine .inr ⟨rfl, fun score fee held => ?_⟩
      obtain ⟨mark, stored⟩ := Option.isSome_iff_exists.1 (present score fee held)
      have outside := Partition.firstWhere_eq_none_iff.1 first _ _ stored
      rw [(range _ (present score fee held)).2 ⟨rfl, rfl⟩] at outside
      cases outside
  | some entry =>
      obtain ⟨⟨spk', tick', reversed, fee⟩, mark⟩ := entry
      have lastFee : lastFee ledger.vip spk tick = some fee := by
        rw [lastFee, first, Option.map_some]
      obtain ⟨stored, inside, least⟩ := Partition.firstWhere_eq_some_iff.1 first
      have isRow : (ledger.vip.get ⟨spk', tick', reversed, fee⟩).isSome := by rw [stored]; rfl
      obtain ⟨rfl, rfl⟩ := (range _ isRow).1 inside
      obtain ⟨score, le, reversedEq, held⟩ := (row _).1 isRow
      simp only at reversedEq held
      rw [lastFee]
      refine .inl ⟨score, held, fun other otherFee otherHeld => ?_⟩
      obtain ⟨mark', stored'⟩ := Option.isSome_iff_exists.1 (present other otherFee otherHeld)
      have above := least _ _ stored' ((range _ (present other otherFee otherHeld)).2 ⟨rfl, rfl⟩)
      rw [← not_lt, VipKey.lt_iff] at above
      simp only [lt_self_iff_false, false_or, true_and, not_or] at above
      have otherLe := (replay.discounted_lt otherHeld).1
      omega

end Replay

/-! The royalty rule. -/

theorem royaltyViolation_isRoyalty {vip : Partition VipKey Unit} {tick : Tick}
    {toSpk : ScriptPublicKey} {deployRoyalty mintRoyalty : Option RoyaltyDetails}
    {error : CtxValidationError}
    (violation : royaltyViolation vip tick toSpk deployRoyalty mintRoyalty = some error) :
    error.IsRoyalty := by
  unfold royaltyViolation at violation
  split at violation
  · simp only at violation
    split_ifs at violation
    · cases violation
      exact .inl rfl
    · cases violation
      exact .inr (.inl rfl)
  · cases violation
    exact .inr (.inr rfl)
  · cases violation

/-- A mint pays the royalty rule with its first output. -/
theorem royaltyViolation_eq_none_iff {vip : Partition VipKey Unit} {tick : Tick}
    {toSpk : ScriptPublicKey} {royalty : RoyaltyDetails} {mintRoyalty : Option RoyaltyDetails} :
    royaltyViolation vip tick toSpk (some royalty) mintRoyalty = none ↔
      ∃ paid, mintRoyalty = some paid ∧ (lastFee vip toSpk tick).getD royalty.fee ≤ paid.fee ∧
        paid.beneficiary = royalty.beneficiary := by
  cases mintRoyalty with
  | none => simp [royaltyViolation]
  | some paid =>
      simp only [royaltyViolation, Option.some.injEq, exists_eq_left']
      split_ifs with short other
      · simp [short]
      · simp [Ne.symm other]
      · simp only [not_lt] at short
        simp only [ne_eq, Decidable.not_not] at other
        simp [short, other]

/-- A mint that reaches the royalty rule is refused for it exactly if the rule is violated. -/
theorem processMint_refused_iff {db : Db} {mergesetEntropy score : ℕ} {common : OperationCommon}
    {info : MintInfo} {entry : ScoredDeployInfoWithCommon}
    (found : db.collectionRegistry.get common.tick = some entry)
    (started : entry.info.info.mintStartDaa ≤ common.acceptingBlockDaaScore)
    (supply : entry.info.info.max ≠ 0)
    (preminted : entry.info.info.premint ≤ (db.lastMintedTokenSeqNo common.tick).getD 0) :
    RefusedForRoyalty (processMint db mergesetEntropy score common info false) ↔
      royaltyViolation db.vip common.tick info.toSpk entry.info.info.royalty info.royalty ≠
        none := by
  have late : (!false && decide (common.acceptingBlockDaaScore < entry.info.info.mintStartDaa)) =
      false := by simpa using started
  have premint : (decide (0 < entry.info.info.premint) && decide
      ((db.lastMintedTokenSeqNo common.tick).getD 0 < entry.info.info.premint)) = false := by
    simp only [Bool.and_eq_false_iff, decide_eq_false_iff_not]
    exact .inr (not_lt.2 preminted)
  simp only [processMint, found, late, supply, premint, Bool.false_eq_true, if_false]
  cases violation : royaltyViolation db.vip common.tick info.toSpk entry.info.info.royalty
      info.royalty with
  | some error =>
      refine iff_of_true ⟨db, error, rfl, royaltyViolation_isRoyalty violation⟩ (by simp)
  | none =>
      refine iff_of_false ?_ (by simp)
      rintro ⟨db', error, outcome, royalty⟩
      simp only at outcome
      split at outcome
      · cases outcome
        simp [CtxValidationError.IsRoyalty] at royalty
      · split at outcome
        · split at outcome <;> cases outcome
        · cases outcome

theorem Analyzer.infoOf_eq_mint {crates : Crates} {analyzer : Analyzer}
    {sigtx : ContextTransaction} {model : UserOperation} {toParam : Option ScriptPublicKey}
    {royaltyTo sender : ScriptPublicKey} {tick : Tick} {info : MintInfo}
    (success : analyzer.infoOf crates sigtx model toParam royaltyTo sender tick =
      .ok (.mint info)) : detectMint sigtx toParam sender = .ok (.mint info) := by
  have kind := op_infoOf success
  rw [infoOf, kind] at success
  exact success

/-- A detected mint offers its first output as the royalty. -/
theorem Analyzer.detected_mint_pays {crates : Crates} {analyzer : Analyzer}
    {sigtx : ContextTransaction} {operation : Operation} {info : MintInfo}
    (detected : analyzer.detectKrc721 crates sigtx = .ok (some operation))
    (kind : operation.info = .mint info) (fee : ℕ) (beneficiary : ScriptPublicKey) :
    (∃ paid, info.royalty = some paid ∧ fee ≤ paid.fee ∧ paid.beneficiary = beneficiary) ↔
      sigtx.PaysFirst fee beneficiary := by
  obtain ⟨_, _, _, _, _, _, _, success⟩ := detectKrc721_eq_ok_some detected
  obtain ⟨_, _, _, asked⟩ := operationOf_eq_ok success
  rw [kind] at asked
  have minted := infoOf_eq_mint asked
  unfold detectMint at minted
  split at minted
  · cases minted
  · cases minted
    unfold ContextTransaction.PaysFirst ContextTransaction.firstOutputAmt
      ContextTransaction.firstBeneficiary
    cases sigtx.tx.outputs.head? with
    | none => simp
    | some output => simp

/-! Runs. -/

/-- A run whose discounts are granted to address scripts. -/
abbrev AddressedRun (kaspa : Kaspa) : Db → Prop :=
  UnforkedRun kaspa (fun _ mergesets => ∀ mergeset ∈ mergesets, ∀ op ∈ mergeset.operations,
    ∀ info, op.operation.info = .discount info → info.toSpk.IsAddress) fun _ _ _ => True

/-- What the analyzer detects grants its discounts to address scripts. -/
theorem UnforkedDetectedRun.addressedRun {crates : Crates} {analyzer : Analyzer}
    {chain : Set ContextTransaction} {db : Db} (pays : crates.PaysToAddresses)
    (run : UnforkedDetectedRun crates analyzer chain db) : AddressedRun crates.toKaspa db := by
  apply GuardedRun.mono run
  · intro db mergesets guarded
    refine ⟨guarded.1, fun mergeset inMergesets op inMergeset info kind => ?_⟩
    obtain ⟨sigtx, _, found⟩ := guarded.2 mergeset inMergesets op inMergeset
    refine (Analyzer.detected_scripts pays found).2 (by simp [kind]) _ ?_
    simp [kind, OperationInfo.scripts]
  · intro db removed forced guarded
    trivial

namespace AddressedRun

variable {kaspa : Kaspa} {db : Db}

theorem recipients (run : AddressedRun kaspa db) : ∀ tick spk score fee,
    db.Discounted tick spk score fee → spk.IsAddress := by
  have logged : db.AllFrom fun operation => ∀ info, operation.info = .discount info →
      info.toSpk.IsAddress := by
    refine UnforkedRun.invariant (fun db => db.AllFrom _) run ?_ ?_ ?_ fun _ _ kept => kept
    · intro score checked stored
      simp [Db.new] at stored
    · intro db db' mergesets _ guarded grown kept
      exact grown.promises guarded kept
    · intro db db' removed forced _ _ rolledBack kept
      exact rolledBack.promises kept
  rintro tick spk score fee ⟨common, _, stored⟩
  obtain ⟨operation, promised, _, kind⟩ := logged _ _ stored
  rcases kind with kind | ⟨_, _, _, minted⟩
  · exact promised ⟨spk, fee⟩ kind.symm
  · cases minted

/-- In every database of a run the effective fee of an address is the one that is reported and
the one that a mint has to pay with its first output. -/
theorem effective_royalty (run : AddressedRun kaspa db) {tick : Tick}
    {entry : ScoredDeployInfoWithCommon} {royalty : RoyaltyDetails} {spk : ScriptPublicKey}
    (found : db.collectionRegistry.get tick = some entry)
    (royal : entry.info.info.royalty = some royalty) (fits : royalty.fee ≤ u64Max)
    (address : spk.IsAddress) : ∃ fee, EffectiveRoyalty db tick entry royalty spk fee := by
  obtain ⟨bound, replay⟩ := run.consistent.replay
  have lower : ∀ score fee, db.Discounted tick spk score fee → fee < royalty.fee := by
    intro score fee held
    obtain ⟨_, entry', found', lower⟩ := replay.discounted_lt held
    rw [found] at found'
    cases found'
    simpa [royaltyFee, royal] using lower
  have effective := @Replay.effectiveFee kaspa bound _ tick spk replay run.recipients
    (fun score fee held => (lower score fee held).trans_le fits) address royalty.fee
  refine ⟨(lastFee db.vip spk tick).getD royalty.fee, effective, ?_, ?_, ?_⟩
  · rcases effective with ⟨score, held, _⟩ | ⟨full, _⟩
    · exact (lower score _ held).le
    · exact full.le
  · intro restrictedProtocols
    simp only [Db.krc721RoyaltyFee, found, royal, Option.map_some]
    cases lastFee db.vip spk tick <;> rfl
  · rintro crates analyzer sigtx operation info mergesetEntropy score detected kind rfl rfl started
      supply preminted
    rw [processMint_refused_iff found started supply preminted, royal, ne_eq,
      royaltyViolation_eq_none_iff, Analyzer.detected_mint_pays detected kind]

end AddressedRun

namespace Sample

theorem discounted_addressed : AddressedRun kaspa discounted := by
  obtain ⟨diff, success⟩ := processAdditions_added .new discount_admissible
  apply UnforkedRun.added .new discount_admissible _ success
  simp only [royaltyBlock, discountBlock, operation, List.forall_mem_cons, List.not_mem_nil,
    false_implies, implies_true, and_true, reduceCtorEq, OperationInfo.discount.injEq, true_and]
  rintro info rfl
  exact .pubKey _ List.length_replicate

end Sample

theorem AddressedRun.effective_royalty_discounted : ∃ entry royalty fee,
    Sample.discounted.collectionRegistry.get Sample.tick = some entry ∧
      entry.info.info.royalty = some royalty ∧
      EffectiveRoyalty Sample.discounted Sample.tick entry royalty Sample.bob fee := by
  obtain ⟨entry, found, royal⟩ : ∃ entry,
      Sample.discounted.collectionRegistry.get Sample.tick = some entry ∧
        entry.info.info.royalty = some ⟨Sample.alice, 10⟩ := ⟨_, rfl, rfl⟩
  obtain ⟨fee, effective⟩ := AddressedRun.effective_royalty Sample.discounted_addressed found royal
    (by decide) (.pubKey (List.replicate 32 2) List.length_replicate)
  exact ⟨entry, _, fee, found, royal, effective⟩

namespace Sample

/-- Discounts of 4 and of 7 for bob in blocks of one blue score. -/
def forkedDiscounts : List ChainStep := [
  .add [royaltyBlock],
  .add [block 2 102 0 [operation 2 alice (.discount ⟨bob, 4⟩)]],
  .add [block 2 202 0 [operation 3 alice (.discount ⟨bob, 7⟩)]]]

theorem forkedDiscounts_reachable : Reachable kaspa (reached forkedDiscounts) :=
  reached_reachable (by decide) (by decide +kernel)

end Sample

/-- The log has the discount of 7, and the fee of 4 is the one that is reported. -/
theorem Reachable.not_effectiveRoyalty_forked : ∃ entry royalty,
    Reachable Sample.kaspa (Sample.reached Sample.forkedDiscounts) ∧
      (Sample.reached Sample.forkedDiscounts).collectionRegistry.get Sample.tick = some entry ∧
      entry.info.info.royalty = some royalty ∧ Sample.bob.IsAddress ∧
      ∀ fee, ¬ EffectiveRoyalty (Sample.reached Sample.forkedDiscounts) Sample.tick entry royalty
        Sample.bob fee := by
  have royal : ((Sample.reached Sample.forkedDiscounts).collectionRegistry.get Sample.tick).map
      (·.info.info.royalty) = some (some ⟨Sample.alice, 10⟩) := by decide +kernel
  obtain ⟨entry, found, same⟩ := Option.map_eq_some_iff.1 royal
  refine ⟨entry, ⟨Sample.alice, 10⟩, Sample.forkedDiscounts_reachable, found, same,
    .pubKey _ List.length_replicate, fun fee effective => ?_⟩
  have reported : (Sample.reached Sample.forkedDiscounts).krc721RoyaltyFee Sample.bob Sample.tick
      ["ipfs"] = some 4 := by decide +kernel
  rw [effective.reported ["ipfs"]] at reported
  split at reported
  · cases reported
  · cases reported
    have logged : (Sample.reached Sample.forkedDiscounts).operationHistory.entries.all
        (fun row => row.2.operation.info != .discount ⟨Sample.bob, 4⟩) = true := by
      decide +kernel
    rcases effective.effective with ⟨score, ⟨common, _, stored⟩, _⟩ | ⟨full, _⟩
    · have other := List.all_eq_true.1 logged _ (Partition.mem_entries.2 stored)
      simp at other
    · cases full

end Krc721
