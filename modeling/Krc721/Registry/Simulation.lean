import Krc721.Registry.View
import Krc721.Market.EffectiveRoyalty
import Krc721.Processor.Executed
import Krc721.View.AvailableRanges

/-! The processor keeps the registry. It accepts an operation exactly when the registry allows it,
and what it then writes shows in the registry as the event. -/

set_option autoImplicit false

namespace Krc721

open OrderedStore SymbolStream TokenRegistry

/-- What the analyzer promises of the royalties and of the recipients that discounts are
looked up for. -/
structure Operation.Standard (operation : Operation) : Prop where
  royalty : ∀ info, operation.info = .deploy info → royaltyFee info.royalty ≤ u64Max
  minted : ∀ info, operation.info = .mint info → info.toSpk.IsAddress
  discounted : ∀ info, operation.info = .discount info → info.toSpk.IsAddress

/-- Transfers, listings and sales. -/
def OperationInfo.IsTrade : OperationInfo → Prop
  | .transfer _ | .list _ | .send _ => True
  | .deploy _ | .mint _ | .discount _ => False

namespace Operation.Standard

variable {common : OperationCommon}

theorem deploy {info : DeployInfo} (royalty : royaltyFee info.royalty ≤ u64Max) :
    Operation.Standard ⟨common, .deploy info⟩ where
  royalty := by
    intro found kind
    cases kind
    exact royalty
  minted := by simp
  discounted := by simp

theorem mint {info : MintInfo} (address : info.toSpk.IsAddress) :
    Operation.Standard ⟨common, .mint info⟩ where
  royalty := by simp
  minted := by
    intro found kind
    cases kind
    exact address
  discounted := by simp

theorem discount {info : DiscountInfo} (address : info.toSpk.IsAddress) :
    Operation.Standard ⟨common, .discount info⟩ where
  royalty := by simp
  minted := by simp
  discounted := by
    intro found kind
    cases kind
    exact address

theorem of_trade {operation : Operation} (trade : operation.info.IsTrade) :
    operation.Standard := by
  constructor
  all_goals
    intro info kind
    rw [kind] at trade
    exact trade.elim

end Operation.Standard

/-- A run of operations as the analyzer detects them. -/
abbrev StandardRun (kaspa : Kaspa) : Db → Prop := GivenRun kaspa Operation.Standard

/-! The discounts that a mint looks up. -/

/-- The discounts are to addresses and below the royalty of their collection. -/
structure Ledger.DiscountsFit (ledger : Ledger) : Prop where
  royalties : ∀ tick entry, ledger.collectionRegistry.get tick = some entry →
    royaltyFee entry.info.info.royalty ≤ u64Max
  rows : ∀ key, (ledger.vip.get key).isSome →
    key.spk.IsAddress ∧ key.fee < u64Max ∧ key.reversedScore ≤ u64Max

theorem Applied.discountsFit {kaspa : Kaspa} {db db' : Db} {context : ContextOperation}
    {checked : CheckedOperation} (applied : Applied kaspa db context db' checked)
    (standard : context.operation.Standard) (fit : db.toLedger.DiscountsFit) :
    db'.toLedger.DiscountsFit := by
  constructor
  case royalties =>
    intro tick entry found
    cases applied with
    | deployed info kind free =>
        simp only [Partition.get_insert] at found
        split at found
        · cases found
          exact standard.royalty info kind
        · exact fit.royalties tick entry found
    | _ => exact fit.royalties tick entry found
  case rows =>
    intro key present
    cases applied with
    | discounted info entry kind found byDeployer lower =>
        simp only [Partition.get_insert] at present
        split at present
        · rename_i same
          rw [← same]
          have limit := fit.royalties _ entry found
          exact ⟨standard.discounted info kind, by simp only; omega, Nat.sub_le _ _⟩
        · exact fit.rows key present
    | _ => exact fit.rows key present

theorem Executed.discountsFit {kaspa : Kaspa} {bound : ℕ} {ledger : Ledger}
    (executed : Executed kaspa Operation.Standard bound ledger) : ledger.DiscountsFit := by
  induction executed with
  | empty => exact ⟨by simp, by simp⟩
  | step earlier reached le sound fresh standard success ih =>
      have applied := Applied.of_success earlier.replay.wf reached sound success
      have fit := applied.discountsFit standard ih
      exact ⟨fit.royalties, fit.rows⟩

/-- The byte range that a mint scans holds the discounts of its recipient. -/
theorem Ledger.DiscountsFit.lastFee_eq {ledger : Ledger} (fit : ledger.DiscountsFit) {tick : Tick}
    {spk : ScriptPublicKey} (address : spk.IsAddress) :
    lastFee ledger.vip spk tick = ledger.view.discount (tick, spk) := by
  unfold lastFee
  rw [Partition.firstWhere_congr _ (grantedTo tick spk)]
  · rfl
  · intro key present
    obtain ⟨keyAddress, fee, reversed⟩ := fit.rows key present
    have range := @VipKey.between_iff spk tick key keyAddress address (fun _ _ => fee) reversed
    rw [grantedTo, Bool.eq_iff_iff, Bool.and_eq_true, Bool.and_eq_true]
    simp only [decide_eq_true_eq]
    exact range

/-- A discount shows at once, and nothing else changes the discounts. -/
theorem view_discount_insert {vip : Partition VipKey Unit} {bound score fee : ℕ}
    (under : vip.Under VipKey.rowScore bound) (reached : bound ≤ score) (le : score ≤ u64Max)
    (tick : Tick) (spk : ScriptPublicKey) :
    (fun grant : Tick × ScriptPublicKey =>
      ((vip.insert ⟨spk, tick, u64Max - score, fee⟩ ()).firstWhere
        (grantedTo grant.1 grant.2)).map fun entry => entry.1.fee) =
      Function.update (fun grant : Tick × ScriptPublicKey =>
        (vip.firstWhere (grantedTo grant.1 grant.2)).map fun entry => entry.1.fee)
        (tick, spk) (some fee) := by
  funext grant
  by_cases same : grant = (tick, spk)
  · rw [same, Function.update_self, Partition.firstWhere_insert_self]
    · rfl
    · simp [grantedTo]
    · intro stored present matched
      obtain ⟨row, found⟩ := Option.isSome_iff_exists.1 present
      have older := under stored row found
      obtain ⟨spk', tick', reversed, fee'⟩ := stored
      simp only [grantedTo, Bool.and_eq_true, decide_eq_true_eq] at matched
      obtain ⟨sameSpk, sameTick⟩ := matched
      subst sameSpk sameTick
      simp only [VipKey.rowScore] at older
      rw [VipKey.lt_iff]
      exact .inr ⟨rfl, .inl (by omega)⟩
  · rw [Function.update_of_ne same, Partition.firstWhere_insert_of_not]
    rw [grantedTo, Bool.and_eq_false_iff, decide_eq_false_iff_not, decide_eq_false_iff_not]
    by_contra both
    rw [not_or, not_not, not_not] at both
    exact same (Prod.ext both.2.symm both.1.symm)

/-! What the registry allows. -/

/-- What a mint has to meet when the premints of its collection are out. -/
structure Mintable (db : Db) (common : OperationCommon) (info : MintInfo) (deploy : DeployInfo)
    (count : ℕ) : Prop where
  started : deploy.mintStartDaa ≤ common.acceptingBlockDaaScore
  paid : royaltyViolation db.vip common.tick info.toSpk deploy.royalty info.royalty = none
  room : count < deploy.max

theorem processMint_mintable {db : Db} {common : OperationCommon}
    {entry : ScoredDeployInfoWithCommon} {ids : List ℕ} (entropy score : ℕ) (info : MintInfo)
    (found : db.collectionRegistry.get common.tick = some entry)
    (sound : entry.info.info.Sound)
    (supply : Supply db.toOwnershipStore db.toRangeStore common.tick entry.info.info.max
      entry.info.info.premint ids)
    (preminted : entry.info.info.premint ≤ ids.length) :
    (∃ error, processMint db entropy score common info false = .ok (db, .error error) ∧
      ¬ Mintable db common info entry.info.info ids.length) ∨
    ∃ db' tokenId, processMint db entropy score common info false =
        .ok (db', .ok { info with tokenId }) ∧
      Mintable db common info entry.info.info ids.length := by
  have last := supply.issued.lastMintedTokenSeqNo
  have late : ¬ ids.length < entry.info.info.premint := not_lt.2 preminted
  unfold processMint
  simp only [found, last, Bool.not_false, Bool.true_and, decide_eq_true_eq, late, decide_false,
    Bool.and_false, Bool.false_eq_true, if_false]
  by_cases notStarted : common.acceptingBlockDaaScore < entry.info.info.mintStartDaa
  · rw [if_pos notStarted]
    exact .inl ⟨_, rfl, fun mintable => not_le.2 notStarted mintable.started⟩
  rw [if_neg notStarted]
  by_cases empty : entry.info.info.max = 0
  · rw [if_pos empty]
    refine .inl ⟨_, rfl, fun mintable => ?_⟩
    have room := mintable.room
    omega
  rw [if_neg empty]
  cases violation : royaltyViolation db.vip common.tick info.toSpk entry.info.info.royalty
      info.royalty with
  | some error =>
      refine .inl ⟨error, rfl, fun mintable => ?_⟩
      rw [mintable.paid] at violation
      cases violation
  | none =>
      by_cases full : entry.info.info.max < ids.length + 1
      · simp only [if_pos full]
        refine .inl ⟨_, rfl, fun mintable => ?_⟩
        have room := mintable.room
        omega
      · have below : entry.info.info.premint < entry.info.info.max := by omega
        obtain ⟨taken, tokenId, success, _⟩ :=
          supply.draw_step preminted (by omega) sound.max_lt entropy score info.toSpk
        simp only [if_neg full, if_pos below, success]
        exact .inr ⟨_, tokenId, rfl, not_lt.1 notStarted, violation, by omega⟩

/-- The royalty rule of the processor is that of the registry. -/
theorem royaltyViolation_eq_none_iff_pays {ledger : Ledger} (fit : ledger.DiscountsFit)
    (tick : Tick) {toSpk : ScriptPublicKey} (address : toSpk.IsAddress)
    (royalty paid : Option RoyaltyDetails) :
    royaltyViolation ledger.vip tick toSpk royalty paid = none ↔
      ∀ asked, royalty.map RoyaltyDetails.royalty = some asked →
        ledger.view.Pays tick toSpk asked (paid.map RoyaltyDetails.royalty) := by
  cases royalty with
  | none => simp [royaltyViolation]
  | some details =>
      rw [royaltyViolation_eq_none_iff, Option.map_some]
      simp only [Option.some_inj, forall_eq']
      rw [Registry.Pays, ← fit.lastFee_eq address]
      cases paid with
      | none => simp
      | some given => simp [RoyaltyDetails.royalty, and_comm]

/-- The tokens that the registry has no owner for are those that were not minted. -/
theorem Supply.unowned_iff {ledger : Ledger} {bound : ℕ} {tick : Tick} {max premint tokenId : ℕ}
    {ids : List ℕ}
    (supply : Supply ledger.toOwnershipStore ledger.toRangeStore tick max premint ids)
    (wf : ledger.Wf bound) : ledger.view.owner (tick, tokenId) = none ↔ tokenId ∉ ids := by
  rw [← supply.owned_iff wf.owned, OwnershipStore.Owned, Option.not_isSome_iff_eq_none]
  exact Option.map_eq_none_iff

/-- A collection can mint exactly if the registry has a token for it. -/
theorem mintable_iff {db : Db} {bound : ℕ} {common : OperationCommon} {info : MintInfo}
    {entry : ScoredDeployInfoWithCommon} {ids : List ℕ} (wf : db.toLedger.Wf bound)
    (fit : db.toLedger.DiscountsFit)
    (found : db.collectionRegistry.get common.tick = some entry)
    (sound : entry.info.info.Sound)
    (supply : Supply db.toOwnershipStore db.toRangeStore common.tick entry.info.info.max
      entry.info.info.premint ids)
    (preminted : entry.info.info.premint ≤ ids.length) (address : info.toSpk.IsAddress) :
    Mintable db common info entry.info.info ids.length ↔
      ∃ tokenId, db.toLedger.view.Allows (.mint (common.tick, tokenId) info.toSpk
        (info.royalty.map RoyaltyDetails.royalty) common.acceptingBlockDaaScore) := by
  have full := supply.full_iff sound.premint_le
  have pays := royaltyViolation_eq_none_iff_pays fit common.tick address
    entry.info.info.royalty info.royalty
  have terms : db.toLedger.view.terms common.tick = some entry.info.info.terms := by
    simp only [Ledger.view, found, Option.map_some]
  constructor
  · intro mintable
    obtain ⟨_, tokenId, _, above, le, fresh, _⟩ :=
      supply.draw_step preminted mintable.room sound.max_lt 0 0 default
    exact ⟨tokenId, _, terms, mintable.started, above, le, (supply.unowned_iff wf).2 fresh,
      pays.1 mintable.paid⟩
  · intro allowed
    obtain ⟨tokenId, given, given', opens, above, le, unowned, paid⟩ := allowed
    rw [terms, Option.some_inj] at given'
    subst given'
    constructor
    case started => exact opens
    case paid => exact pays.2 paid
    case room =>
      apply lt_of_le_of_ne supply.within
      intro count
      exact (supply.unowned_iff wf).1 unowned (full.2 count tokenId (Nat.one_le_of_lt above) le)

/-! One operation. -/

section Step

variable {kaspa : Kaspa} {db db' : Db} {context : ContextOperation} {checked : CheckedOperation}
variable {bound : ℕ}

/-- The premints of a collection are out. -/
theorem Supply.premint_le_of_sound {ledger : Ledger} {tick : Tick}
    {entry : ScoredDeployInfoWithCommon} {ids : List ℕ}
    (supply : Supply ledger.toOwnershipStore ledger.toRangeStore tick
      entry.info.info.max entry.info.info.premint ids) (wf : ledger.Wf bound)
    (viewSound : TokenRegistry.Sound ledger.view)
    (found : ledger.collectionRegistry.get tick = some entry) :
    entry.info.info.premint ≤ ids.length := by
  by_contra few
  rw [not_le] at few
  have terms : ledger.view.terms tick = some entry.info.info.terms := by
    simp only [Ledger.view, found, Option.map_some]
  have last := viewSound.preminted terms (Nat.one_le_of_lt few) le_rfl
  have owned : ledger.toOwnershipStore.Owned tick entry.info.info.premint := by
    simpa [Ledger.view, OwnershipStore.Owned, DeployInfo.terms] using last
  have issued := supply.mem_premint few.le ((supply.owned_iff wf.owned).1 owned)
  omega

theorem view_terms_insert (ledger : Ledger) (tick : Tick) (score : ℕ) (info : DeployInfo)
    (common : OperationCommon) :
    (fun key => ((ledger.collectionRegistry.insert tick ⟨score, info, common⟩).get key).map
      fun entry => entry.info.info.terms) =
      Function.update ledger.view.terms tick (some info.terms) := by
  funext key
  rw [Partition.get_insert]
  by_cases same : key = tick
  · rw [same, Function.update_self, if_pos rfl]
    rfl
  · rw [Function.update_of_ne same, if_neg (Ne.symm same)]
    rfl

/-- What an accepted operation writes is what the registry makes of its event. -/
theorem Applied.simulates (applied : Applied kaspa db context db' checked)
    (newest : ∀ info, context.operation.info = .discount info →
      db.vip.Under VipKey.rowScore context.txScore ∧ context.txScore ≤ u64Max)
    (accepted : checked.error = none) :
    db'.toLedger.view = db.toLedger.view.apply (checked.operation.event kaspa) := by
  cases applied with
  | rejected error => cases accepted
  | deployed info kind free =>
      rw [Operation.event, kind]
      apply Registry.ext
      · exact view_terms_insert db.toLedger _ _ _ _
      · funext token
        have owner := @OwnershipStore.owner_premints db.toOwnershipStore
          context.operation.common.tick context.txScore 0 info.deployer info.premint
          ⟨token.1, token.2⟩
        simp only [Nat.zero_add] at owner
        exact owner
      · rfl
      · rfl
  | minted info entry ids tokenId ranges kind found mint supply =>
      apply Registry.ext
      · rfl
      · funext token
        exact owner_insert _ _ token
      · rfl
      · rfl
  | transferred info current kind owned bySender unlisted =>
      rw [Operation.event, kind]
      apply Registry.ext
      · rfl
      · funext token
        exact owner_insert _ _ token
      · rfl
      · rfl
  | discounted info entry kind found byDeployer lower =>
      rw [Operation.event, kind]
      apply Registry.ext
      · rfl
      · rfl
      · rfl
      · obtain ⟨under, le⟩ := newest info kind
        exact view_discount_insert under le_rfl le _ _
  | listed info current kind owned bySender unlisted locked =>
      rw [Operation.event, kind]
      apply Registry.ext
      · rfl
      · rfl
      · exact offer_insert _ _
      · rfl
  | sold info listing buyer kind found spends toBuyer =>
      rw [Operation.event, kind]
      apply Registry.ext
      · rfl
      · funext token
        rw [Registry.owner_apply, Event.gives, toBuyer]
        exact owner_insert _ _ token
      · exact offer_erase _
      · rfl
  | cancelled info listing kind found spends noBuyer =>
      rw [Operation.event, kind]
      apply Registry.ext
      · rfl
      · funext token
        rw [Registry.owner_apply, Event.gives, noBuyer, ite_self]
        rfl
      · exact offer_erase _
      · rfl

/-- A mint succeeds exactly if its collection can mint. -/
theorem mintable_of_success {info : MintInfo} {entry : ScoredDeployInfoWithCommon} {ids : List ℕ}
    (kind : context.operation.info = .mint info)
    (found : db.collectionRegistry.get context.operation.common.tick = some entry)
    (sound : entry.info.info.Sound)
    (supply : Supply db.toOwnershipStore db.toRangeStore context.operation.common.tick
      entry.info.info.max entry.info.info.premint ids)
    (preminted : entry.info.info.premint ≤ ids.length)
    (success : applyOperation kaspa db context = .ok (db', checked)) :
    checked.error = none ↔
      Mintable db context.operation.common info entry.info.info ids.length := by
  simp only [applyOperation, kind] at success
  rcases processMint_mintable context.mergesetEntropy context.txScore info found sound supply
      preminted with ⟨error, refused, unmintable⟩ | ⟨minted, tokenId, accepted, mintable⟩
  · simp only [refused] at success
    cases success
    exact iff_of_false (by simp) unmintable
  · simp only [accepted] at success
    cases success
    exact iff_of_true rfl mintable

/-- What the processor accepts, the registry allows. -/
theorem Applied.allows (applied : Applied kaspa db context db' checked)
    (wf : db.toLedger.Wf bound) (fit : db.toLedger.DiscountsFit)
    (viewSound : TokenRegistry.Sound db.toLedger.view) (sound : context.operation.Sound)
    (standard : context.operation.Standard)
    (success : applyOperation kaspa db context = .ok (db', checked))
    (accepted : checked.error = none) :
    db.toLedger.view.Allows (checked.operation.event kaspa) := by
  have terms {tick : Tick} {entry : ScoredDeployInfoWithCommon}
      (found : db.collectionRegistry.get tick = some entry) :
      db.toLedger.view.terms tick = some entry.info.info.terms := by
    simp only [Ledger.view, found, Option.map_some]
  have owner {tick : Tick} {tokenId : ℕ} {current : CurrentOwnershipValue}
      (owned : db.currentOwnership.get ⟨tick, tokenId⟩ = some current) :
      db.toLedger.view.owner (tick, tokenId) = some current.owner := by
    simp only [Ledger.view, owned, Option.map_some]
  have offer {tick : Tick} {tokenId : ℕ} {found : Option ListingValue}
      (listed : db.listings.get ⟨tick, tokenId⟩ = found) :
      db.toLedger.view.offer (tick, tokenId) = found.map (·.listingTxId) := by
    simp only [Ledger.view, listed]
  cases applied with
  | rejected error => cases accepted
  | deployed info kind free =>
      rw [Operation.event, kind]
      refine ⟨?_, (sound info kind).premint_le⟩
      simp only [Ledger.view, free, Option.map_none]
  | minted info entry ids tokenId ranges kind found mint supply =>
      obtain ⟨soundEntry, _⟩ := wf.deployed found
      have preminted := supply.premint_le_of_sound wf viewSound found
      have mintable := (mintable_of_success kind found soundEntry supply preminted success).1 rfl
      have last : (ids ++ [tokenId])[ids.length]? = some tokenId := by simp
      obtain ⟨above, le⟩ := mint.supply.drawn preminted last
      exact ⟨_, terms found, mintable.started, above, le, (supply.unowned_iff wf).2 mint.fresh,
        (royaltyViolation_eq_none_iff_pays fit context.operation.common.tick
        (standard.minted info kind) _ _).1 mintable.paid⟩
  | transferred info current kind owned bySender unlisted =>
      rw [Operation.event, kind]
      exact ⟨bySender ▸ owner owned, offer unlisted⟩
  | discounted info entry kind found byDeployer lower =>
      rw [Operation.event, kind]
      cases royal : entry.info.info.royalty with
      | none =>
          rw [royal] at lower
          cases lower
      | some royalty =>
          refine ⟨_, royalty.royalty, terms found, byDeployer.symm, ?_, ?_⟩
          · rw [DeployInfo.terms, royal, Option.map_some]
          · rw [royal] at lower
            exact lower
  | listed info current kind owned bySender unlisted locked =>
      rw [Operation.event, kind]
      exact ⟨bySender ▸ owner owned, offer unlisted, locked⟩
  | sold info listing buyer kind found spends toBuyer =>
      rw [Operation.event, kind]
      exact (offer found).trans (congrArg some spends.symm)
  | cancelled info listing kind found spends noBuyer =>
      rw [Operation.event, kind]
      exact (offer found).trans (congrArg some spends.symm)

/-- Only a mint is recorded with another token than it came with. -/
theorem CheckedOperation.Records.operation_eq {operation : Operation}
    (records : checked.Records operation) (other : ∀ info, operation.info ≠ .mint info) :
    checked.operation = operation := by
  obtain ⟨sameCommon, sameInfo⟩ := records
  rcases sameInfo with same | ⟨info, tokenId, mint, _⟩
  · obtain ⟨⟨common, info⟩, error⟩ := checked
    simp only at sameCommon same
    rw [sameCommon, same]
  · exact absurd mint (other info)

/-! What the registry allows, the processor accepts. -/

theorem processDeployment_accepts (wf : db.toLedger.Wf bound) {common : OperationCommon}
    {info : DeployInfo} (sound : info.Sound) {score : ℕ} {error : Option CtxValidationError}
    (allowed : db.toLedger.view.Allows (.deploy common.tick info.terms))
    (success : processDeployment db score common info = .ok (db', error)) : error = none := by
  have free : db.collectionRegistry.get common.tick = none := Option.map_eq_none_iff.1 allowed.1
  have run := premintLoop_eq info.premint { db with
      collectionRegistry := db.collectionRegistry.insert common.tick ⟨score, info, common⟩
      collectionDeployments := db.collectionDeployments.insert ⟨score, common.tick⟩
        ⟨info, common⟩ }
    (Partition.get_insert_self _ _ _) sound (wf.undeployed free info.max info.premint) (by simp)
  simp only [processDeployment, free, run] at success
  cases success
  rfl

/-- A mint is accepted if the registry allows it for the token that it is recorded with. -/
theorem applyOperation_mint_accepts (wf : db.toLedger.Wf bound) (fit : db.toLedger.DiscountsFit)
    (viewSound : TokenRegistry.Sound db.toLedger.view)
    (standard : context.operation.Standard) {info : MintInfo}
    (kind : context.operation.info = .mint info) {logged : CheckedOperation}
    (records : logged.Records context.operation)
    (allowed : db.toLedger.view.Allows (logged.operation.event kaspa))
    (success : applyOperation kaspa db context = .ok (db', checked)) : checked.error = none := by
  have mint : ∃ tokenId, db.toLedger.view.Allows (.mint
      (context.operation.common.tick, tokenId) info.toSpk
      (info.royalty.map RoyaltyDetails.royalty)
      context.operation.common.acceptingBlockDaaScore) := by
    obtain ⟨sameCommon, sameInfo⟩ := records
    rcases sameInfo with same | ⟨info', tokenId, mint, drawn⟩
    · rw [Operation.event, same, sameCommon, kind] at allowed
      exact ⟨_, allowed⟩
    · rw [kind] at mint
      cases mint
      rw [Operation.event, drawn, sameCommon] at allowed
      exact ⟨_, allowed⟩
  obtain ⟨entry, found⟩ : ∃ entry,
      db.collectionRegistry.get context.operation.common.tick = some entry := by
    obtain ⟨_, _, registered, _⟩ := mint
    obtain ⟨entry, found, _⟩ := Option.map_eq_some_iff.1 registered
    exact ⟨entry, found⟩
  obtain ⟨soundEntry, ids, supply⟩ := wf.deployed found
  have preminted := supply.premint_le_of_sound wf viewSound found
  exact (mintable_of_success kind found soundEntry supply preminted success).2
    ((mintable_iff wf fit found soundEntry supply preminted (standard.minted info kind)).2 mint)

theorem processDiscount_accepts {common : OperationCommon} {info : DiscountInfo} (score : ℕ)
    (allowed : db.toLedger.view.Allows
      (.discount common.tick common.sender info.toSpk info.fee)) :
    (processDiscount db score common info).2 = none := by
  obtain ⟨terms, royalty, registered, byDeployer, royal, lower⟩ := allowed
  obtain ⟨entry, found, same⟩ := Option.map_eq_some_iff.1 registered
  subst same
  obtain ⟨details, charged, same⟩ := Option.map_eq_some_iff.1 royal
  subst same
  have sender : common.sender = entry.info.info.deployer := byDeployer.symm
  have notOver : ¬ details.fee ≤ info.fee := not_le.2 lower
  simp only [processDiscount, found, sender, ne_eq, not_true_eq_false, if_false, charged,
    Option.map_some, Option.getD_some, notOver]

/-! A trade is accepted exactly if the registry allows it. -/

theorem processTransfer_allows_iff {common : OperationCommon} {info : TransferInfo}
    (score : ℕ) : (processTransfer db score common info).2 = none ↔
      db.toLedger.view.Allows
        (.transfer (common.tick, info.tokenId) common.sender info.toSpk) := by
  unfold processTransfer
  simp only [Registry.Allows, Ledger.view, Option.map_eq_none_iff]
  cases owned : db.currentOwnership.get ⟨common.tick, info.tokenId⟩ with
  | none => simp
  | some current =>
      by_cases bySender : current.owner = common.sender
      · cases unlisted : db.listings.get ⟨common.tick, info.tokenId⟩ with
        | none => simp [bySender]
        | some listing => simp [bySender]
      · simp [bySender]

/-- A token can only be listed if its collection is registered. -/
theorem processList_allows_iff {common : OperationCommon} {info : ListingInfo} (score : ℕ)
    (registered : (db.currentOwnership.get ⟨common.tick, info.tokenId⟩).isSome →
      (db.collectionRegistry.get common.tick).isSome) :
    (processList kaspa db score common info).2 = none ↔
      db.toLedger.view.Allows (Operation.event kaspa ⟨common, .list info⟩) := by
  unfold processList
  simp only [Operation.event, Registry.Allows, Ledger.view, Option.map_eq_none_iff]
  by_cases locked : kaspa.payToScriptHashScript info.redeemScript = info.utxoAddress
  · cases owned : db.currentOwnership.get ⟨common.tick, info.tokenId⟩ with
    | none =>
        simp only [if_neg (not_not.2 locked)]
        split <;> simp
    | some current =>
        have deployed : ¬ (db.collectionRegistry.get common.tick).isNone := by
          rw [Option.isNone_iff_eq_none, ← ne_eq, ← Option.isSome_iff_ne_none]
          exact registered (by rw [owned]; rfl)
        simp only [if_neg (not_not.2 locked), if_neg deployed]
        by_cases bySender : current.owner = common.sender
        · cases unlisted : db.listings.get ⟨common.tick, info.tokenId⟩ with
          | none => simp [bySender, locked]
          | some listing => simp [bySender]
        · simp [bySender]
  · simp [locked]

theorem processSend_allows_iff {common : OperationCommon} {info : SendInfo} (score : ℕ) :
    (processSend db score common info).2 = none ↔
      db.toLedger.view.Allows
        (.settle (common.tick, info.tokenId) info.listingUtxoTxid info.buyer) := by
  unfold processSend
  simp only [Registry.Allows, Ledger.view]
  cases found : db.listings.get ⟨common.tick, info.tokenId⟩ with
  | none => simp
  | some listing =>
      by_cases spends : info.listingUtxoTxid = listing.listingTxId
      · simp only [if_neg (not_not.2 spends)]
        cases info.buyer <;> simp [spends]
      · simp [spends, Ne.symm spends]

theorem accepts_of_allows (wf : db.toLedger.Wf bound) (fit : db.toLedger.DiscountsFit)
    (viewSound : TokenRegistry.Sound db.toLedger.view) (sound : context.operation.Sound)
    (standard : context.operation.Standard) {logged : CheckedOperation}
    (records : logged.Records context.operation)
    (allowed : db.toLedger.view.Allows (logged.operation.event kaspa))
    (success : applyOperation kaspa db context = .ok (db', checked)) : checked.error = none := by
  cases kind : context.operation.info with
  | mint info =>
      exact applyOperation_mint_accepts wf fit viewSound standard kind records allowed success
  | deploy info =>
      rw [records.operation_eq (by simp [kind]), Operation.event, kind] at allowed
      simp only [applyOperation, kind] at success
      split at success
      · cases success
      · rename_i settled
        cases success
        exact processDeployment_accepts wf (sound info kind) allowed settled
  | transfer info =>
      rw [records.operation_eq (by simp [kind]), Operation.event, kind] at allowed
      simp only [applyOperation, kind] at success
      cases success
      exact (processTransfer_allows_iff _).2 allowed
  | discount info =>
      rw [records.operation_eq (by simp [kind]), Operation.event, kind] at allowed
      simp only [applyOperation, kind] at success
      cases success
      exact processDiscount_accepts _ allowed
  | list info =>
      rw [records.operation_eq (by simp [kind]), Operation.event, kind] at allowed
      obtain ⟨terms, registered, _⟩ := viewSound.owned _ (by rw [allowed.1]; rfl)
      obtain ⟨entry, deployed, _⟩ := Option.map_eq_some_iff.1 registered
      simp only [applyOperation, kind] at success
      cases success
      exact (processList_allows_iff _ fun _ => Option.isSome_iff_exists.2 ⟨entry, deployed⟩).2
        allowed
  | send info =>
      rw [records.operation_eq (by simp [kind]), Operation.event, kind] at allowed
      simp only [applyOperation, kind] at success
      cases success
      exact (processSend_allows_iff _).2 allowed

/-- A trade is settled as the registry settles it, in any database in which the collection of a
token that is listed is registered. -/
theorem settles_trade {operation : Operation} (trade : operation.info.IsTrade)
    (registered : ∀ info, operation.info = .list info →
      (db.currentOwnership.get ⟨operation.common.tick, info.tokenId⟩).isSome →
        (db.collectionRegistry.get operation.common.tick).isSome) (score entropy : ℕ) :
    ∃ db' checked, applyOperation kaspa db ⟨score, operation, entropy⟩ = .ok (db', checked) ∧
      (checked.error = none ↔ db.toLedger.view.Allows (operation.event kaspa)) ∧
      (checked.error = none →
        db'.toLedger.view = db.toLedger.view.apply (operation.event kaspa)) ∧
      (checked.error ≠ none → db' = db) := by
  -- what was written is read off how the operation was settled
  have settles {db' : Db} {checked : CheckedOperation}
      (applied : Applied kaspa db ⟨score, operation, entropy⟩ db' checked)
      (same : checked.operation = operation) : (checked.error = none →
        db'.toLedger.view = db.toLedger.view.apply (operation.event kaspa)) ∧
      (checked.error ≠ none → db' = db) := by
    constructor
    · intro accepted
      have simulates := applied.simulates (fun info kind => (kind ▸ trade).elim) accepted
      rwa [same] at simulates
    · intro refused
      cases applied with
      | rejected error => rfl
      | _ => exact absurd rfl refused
  obtain ⟨common, kind⟩ := operation
  cases kind with
  | deploy info | mint info | discount info => exact trade.elim
  | transfer info =>
      exact ⟨_, _, rfl, processTransfer_allows_iff _,
        settles (processTransfer_applied rfl) rfl⟩
  | list info =>
      exact ⟨_, _, rfl, processList_allows_iff _ (registered info rfl),
        settles (processList_applied rfl) rfl⟩
  | send info =>
      exact ⟨_, _, rfl, processSend_allows_iff _, settles (processSend_applied rfl) rfl⟩

end Step

/-! Runs. -/

section Runs

variable {kaspa : Kaspa} {bound : ℕ}

/-- The log of an executed ledger is a history of its registry. -/
theorem Executed.history {ledger : Ledger}
    (executed : Executed kaspa Operation.Standard bound ledger) :
    History (ledger.events kaspa) ledger.view := by
  induction executed with
  | empty =>
      exact History.empty
  | @step bound db db' context checked earlier reached le sound fresh standard success ih =>
      have wf := earlier.replay.wf
      have applied := Applied.of_success wf reached sound success
      have log : LogStore.events kaspa (db'.recordOperation context.txScore checked).toLogStore =
          db.toLogStore.events kaspa ++
            if checked.error.isNone then [checked.operation.event kaspa] else [] := by
        rw [← LogStore.events_record wf.log reached checked _, Db.recordOperation,
          congrArg LogStore.operationHistory applied.frame.1]
      rw [log]
      have view : (db'.recordOperation context.txScore checked).toLedger.view =
          db'.toLedger.view := rfl
      rw [view]
      cases accepted : checked.error with
      | none =>
          rw [applied.simulates (fun _ _ => ⟨wf.vip.mono reached, le⟩) accepted]
          exact ih.next (applied.allows wf earlier.discountsFit ih.sound sound standard success
            accepted)
      | some error =>
          cases applied with
          | rejected error =>
              rw [Option.isNone_some, if_neg (by simp), List.append_nil]
              exact ih
          | _ => cases accepted

end Runs

/-! What the analyzer detects. -/

theorem Analyzer.detectRoyalty_le {royaltyTo : ScriptPublicKey} {fee : Option ℕ}
    {royalty : Option RoyaltyDetails} (charged : detectRoyalty royaltyTo fee = .ok royalty) :
    royaltyFee royalty ≤ u64Max := by
  cases fee with
  | none =>
      cases charged
      exact Nat.zero_le _
  | some fee =>
      simp only [detectRoyalty] at charged
      split at charged
      · cases charged
      · split at charged
        · cases charged
        · rename_i within
          cases charged
          exact (not_lt.1 within).trans (by decide)

theorem Analyzer.detected_standard {crates : Crates} {analyzer : Analyzer}
    (pays : crates.PaysToAddresses) {sigtx : ContextTransaction} {operation : Operation}
    (detected : analyzer.detectKrc721 crates sigtx = .ok (some operation)) :
    operation.Standard := by
  have scripts := (detected_scripts pays detected).2
  constructor
  case royalty =>
    intro info kind
    obtain ⟨_, _, _, _, _, _, _, success⟩ := detectKrc721_eq_ok_some detected
    obtain ⟨_, _, _, asked⟩ := operationOf_eq_ok success
    rw [kind] at asked
    have op := op_infoOf asked
    rw [infoOf, op] at asked
    obtain ⟨_, _, deployed⟩ := bind_eq_ok.1 asked
    obtain ⟨metadata, _, deployed⟩ := bind_eq_ok.1 deployed
    split at deployed
    · cases deployed
    · obtain ⟨max, _, deployed⟩ := bind_eq_ok.1 deployed
      simp only at deployed
      split_ifs at deployed
      obtain ⟨royalty, charged, built⟩ := bind_eq_ok.1 deployed
      cases built
      exact detectRoyalty_le charged
  case minted =>
    intro info kind
    exact scripts (by simp [kind]) _ (by simp [kind, OperationInfo.scripts])
  case discounted =>
    intro info kind
    exact scripts (by simp [kind]) _ (by simp [kind, OperationInfo.scripts])

theorem UnforkedDetectedRun.standardRun {crates : Crates} {analyzer : Analyzer}
    {chain : Set ContextTransaction} {db : Db} (pays : crates.PaysToAddresses)
    (run : UnforkedDetectedRun crates analyzer chain db) : StandardRun crates.toKaspa db := by
  apply GuardedRun.mono run
  · intro db mergesets guarded
    refine ⟨guarded.1, fun mergeset inMergesets op inMergeset => ?_⟩
    obtain ⟨sigtx, _, found⟩ := guarded.2 mergeset inMergesets op inMergeset
    exact Analyzer.detected_standard pays found
  · intro db removed forced guarded
    trivial

/-! Whole runs, and one operation on top of a run. -/

section Refinement

variable {kaspa : Kaspa} {db : Db}

/-- In every database of a run the accepted operations of the log are a history of the registry
that the rows of the database show, and each token belongs to whom the last of them gave it. -/
theorem StandardRun.refines (run : StandardRun kaspa db) :
    History (db.toLogStore.events kaspa) db.toLedger.view ∧
      ∀ token : OwnershipKey, (db.currentOwnership.get token).map (·.owner) =
        (db.toLogStore.events kaspa).reverse.findSome?
          (Event.gives (token.tick, token.tokenId)) := by
  obtain ⟨bound, executed⟩ := GivenRun.executed run
  have history := executed.history
  exact ⟨history, fun token => history.owner_eq (token.tick, token.tokenId)⟩

/-- An operation that is settled as the registry would settle its event. A mint is recorded with
the token that it was given. -/
structure Decided (kaspa : Kaspa) (db : Db) (operation : Operation) (db' : Db)
    (checked : CheckedOperation) : Prop where
  records : checked.Records operation
  accepts_iff : checked.error = none ↔ ∃ logged : CheckedOperation, logged.Records operation ∧
    db.toLedger.view.Allows (logged.operation.event kaspa)
  accepted : checked.error = none → db.toLedger.view.Allows (checked.operation.event kaspa) ∧
    db'.toLedger.view = db.toLedger.view.apply (checked.operation.event kaspa)
  refused : checked.error ≠ none → db' = db

theorem StandardRun.decides (run : StandardRun kaspa db) {context : ContextOperation}
    (later : ∀ score, (db.operationHistory.get score).isSome → score < context.txScore)
    (le : context.txScore ≤ u64Max) (sound : context.operation.Sound)
    (standard : context.operation.Standard) :
    ∃ db' checked, applyOperation kaspa db context = .ok (db', checked) ∧
      Decided kaspa db context.operation db' checked := by
  obtain ⟨bound, executed⟩ := GivenRun.executed run
  have wf := executed.replay.wf
  have fit := executed.discountsFit
  have viewSound := executed.history.sound
  have reached : bound ≤ context.txScore := by
    rcases executed.replay.bound_logged with empty | ⟨score, checked, last, logged⟩
    · omega
    · have below := later score (by rw [logged]; rfl)
      omega
  obtain ⟨db', checked, success, applied⟩ :=
    @applyOperation_applied kaspa db context bound wf reached sound
  have allows := applied.allows wf fit viewSound sound standard success
  refine ⟨db', checked, success, ?_⟩
  constructor
  case records => exact applied.records
  case accepts_iff =>
    constructor
    · intro accepted
      exact ⟨checked, applied.records, allows accepted⟩
    · intro allowed
      obtain ⟨logged, records, allowed⟩ := allowed
      exact accepts_of_allows wf fit viewSound sound standard records allowed success
  case accepted =>
    intro accepted
    exact ⟨allows accepted, applied.simulates (fun _ _ => ⟨wf.vip.mono reached, le⟩) accepted⟩
  case refused =>
    intro refused
    cases applied with
    | rejected error => rfl
    | _ => exact absurd rfl refused

/-- An operation with a new score is accepted if and only if the registry allows it, in the case
of a mint for some token. Accepted it writes what the event does, rejected it writes nothing. -/
theorem StandardRun.accepts_iff (run : StandardRun kaspa db) {context : ContextOperation}
    (later : ∀ score, (db.operationHistory.get score).isSome → score < context.txScore)
    (le : context.txScore ≤ u64Max) (sound : context.operation.Sound)
    (standard : context.operation.Standard) :
    ∃ db' checked, applyOperation kaspa db context = .ok (db', checked) ∧
      (checked.error = none ↔ ∃ logged : CheckedOperation, logged.Records context.operation ∧
        db.toLedger.view.Allows (logged.operation.event kaspa)) ∧
      (checked.error = none → db.toLedger.view.Allows (checked.operation.event kaspa) ∧
        db'.toLedger.view = db.toLedger.view.apply (checked.operation.event kaspa)) ∧
      (checked.error ≠ none → db' = db) := by
  obtain ⟨db', checked, success, decided⟩ := run.decides later le sound standard
  exact ⟨db', checked, success, decided.accepts_iff, decided.accepted, decided.refused⟩

end Refinement

namespace Sample

theorem discounted_standard : StandardRun kaspa discounted := by
  obtain ⟨diff, success⟩ := processAdditions_added .new discount_admissible
  apply UnforkedRun.added .new discount_admissible _ success
  simp only [royaltyBlock, discountBlock, operation, List.forall_mem_cons, List.not_mem_nil,
    false_implies, implies_true, and_true]
  exact ⟨.deploy (by decide), .discount (.pubKey _ List.length_replicate)⟩

/-- Bob mints at the discount. -/
def discountedMint : ContextOperation where
  txScore := 6000
  operation := operation 3 bob (.mint ⟨0, bob, some ⟨alice, 4⟩⟩)
  mergesetEntropy := 7

theorem discountedMint_standard : discountedMint.operation.Standard :=
  .mint (.pubKey _ List.length_replicate)

theorem discounted_logged (score : ℕ) (logged : (discounted.operationHistory.get score).isSome) :
    score < discountedMint.txScore := by
  have keys : discounted.operationHistory.keys = [2000, 4000] := by decide +kernel
  rw [← Partition.mem_keys, keys] at logged
  have late : ∀ score ∈ [2000, 4000], score < discountedMint.txScore := by decide
  exact late score logged

end Sample

theorem StandardRun.refines_discounted :
    History (Sample.discounted.toLogStore.events Sample.kaspa) Sample.discounted.toLedger.view ∧
      ∀ token : OwnershipKey, (Sample.discounted.currentOwnership.get token).map (·.owner) =
        (Sample.discounted.toLogStore.events Sample.kaspa).reverse.findSome?
          (Event.gives (token.tick, token.tokenId)) :=
  StandardRun.refines Sample.discounted_standard

theorem StandardRun.accepts_iff_discounted : ∃ db' checked,
    applyOperation Sample.kaspa Sample.discounted Sample.discountedMint = .ok (db', checked) ∧
      (checked.error = none ↔
        ∃ logged : CheckedOperation, logged.Records Sample.discountedMint.operation ∧
          Sample.discounted.toLedger.view.Allows (logged.operation.event Sample.kaspa)) ∧
      (checked.error = none →
        Sample.discounted.toLedger.view.Allows (checked.operation.event Sample.kaspa) ∧
          db'.toLedger.view =
            Sample.discounted.toLedger.view.apply (checked.operation.event Sample.kaspa)) ∧
      (checked.error ≠ none → db' = Sample.discounted) :=
  StandardRun.accepts_iff Sample.discounted_standard Sample.discounted_logged (by decide)
    (by simp [Sample.discountedMint, Sample.operation, Operation.Sound])
    Sample.discountedMint_standard

end Krc721
