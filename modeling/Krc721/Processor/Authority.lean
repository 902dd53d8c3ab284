import Krc721.Processor.Processing

/-! Who may change what. An operation of any score writes rows of its own tick or token only,
and the owner of an existing token changes hands by a transfer of the owner or by a sale of the
owner's listing. -/

set_option autoImplicit false

namespace Krc721

open OrderedStore

/-! The writes of a mint, with whatever score and whatever was deployed. -/

/-- A mint is refused and changes nothing, or it records one mint of its tick. -/
theorem processMint_writes {db db' : Db} {entropy score : ℕ} {common : OperationCommon}
    {info : MintInfo} {isDeployment : Bool} {outcome : Except CtxValidationError MintInfo}
    (success : processMint db entropy score common info isDeployment = .ok (db', outcome)) :
    (∃ error, outcome = .error error ∧ db' = db) ∨ ∃ ranges seq tokenId,
      (db.collectionRegistry.get common.tick).isSome ∧ outcome = .ok { info with tokenId } ∧
      db' = { db with
        toRangeStore := ranges
        toOwnershipStore := db.recordMint common.tick seq tokenId score info.toSpk } ∧
      ∀ other, other ≠ common.tick → db.toRangeStore.SameRows ranges other := by
  unfold processMint at success
  split at success
  · cases success
    exact .inl ⟨_, rfl, rfl⟩
  · rename_i entry found
    have registered : (db.collectionRegistry.get common.tick).isSome := by rw [found]; rfl
    simp only at success
    split at success
    · cases success
      exact .inl ⟨_, rfl, rfl⟩
    · split at success
      · cases success
        exact .inl ⟨_, rfl, rfl⟩
      · split at success
        · cases success
          exact .inl ⟨_, rfl, rfl⟩
        · split at success
          · cases success
            exact .inl ⟨_, rfl, rfl⟩
          · split at success
            · split at success
              · cases success
              · rename_i ranges tokenId drawn
                cases success
                exact .inr ⟨ranges, _, tokenId, registered, rfl, rfl, fun other different =>
                  RangeStore.sameRows_generateTokenId drawn different⟩
            · cases success
              exact .inr ⟨db.toRangeStore, _, _, registered, rfl, rfl,
                fun other _ => .refl _ other⟩

/-- What the mints of one tick may have written: ranges of that tick, and rows of tokens that
have an owner now. -/
structure Minted (tick : Tick) (db db' : Db) : Prop where
  log : db'.toLogStore = db.toLogStore
  listing : ∀ token, db.SameListing db' token
  ranges : ∀ other, other ≠ tick → db.toRangeStore.SameRows db'.toRangeStore other
  tokens : ∀ token, db.toOwnershipStore.SameToken db'.toOwnershipStore token ∨
    token.tick = tick ∧ (db'.currentOwnership.get token).isSome
  owned : ∀ token, (db.currentOwnership.get token).isSome →
    (db'.currentOwnership.get token).isSome

namespace Minted

variable {tick : Tick} {db middle db' : Db}

theorem refl (tick : Tick) (db : Db) : Minted tick db db where
  log := rfl
  listing := .refl db
  ranges := fun other _ => .refl _ other
  tokens := fun token => .inl (.refl _ token)
  owned := fun _ present => present

theorem trans (first : Minted tick db middle) (second : Minted tick middle db') :
    Minted tick db db' where
  log := second.log.trans first.log
  listing := fun token => (first.listing token).trans (second.listing token)
  ranges := fun other different => (first.ranges other different).trans
    (second.ranges other different)
  tokens := by
    intro token
    cases second.tokens token with
    | inr created => exact .inr created
    | inl same =>
        cases first.tokens token with
        | inl same' => exact .inl (same'.trans same)
        | inr created => exact .inr ⟨created.1, second.owned token created.2⟩
  owned := fun token present => second.owned token (first.owned token present)

theorem register (tick : Tick) (db : Db) (collections : CollectionStore) :
    Minted tick db { db with toCollectionStore := collections } where
  log := rfl
  listing := fun _ => ⟨rfl, rfl, fun _ => rfl⟩
  ranges := fun other _ => .refl _ other
  tokens := fun token => .inl (.refl _ token)
  owned := fun _ present => present

theorem record {ranges : RangeStore} (seq tokenId score : ℕ) (toSpk : ScriptPublicKey)
    (frame : ∀ other, other ≠ tick → db.toRangeStore.SameRows ranges other) :
    Minted tick db { db with
      toRangeStore := ranges
      toOwnershipStore := db.recordMint tick seq tokenId score toSpk } where
  log := rfl
  listing := fun _ => ⟨rfl, rfl, fun _ => rfl⟩
  ranges := frame
  tokens := by
    intro token
    by_cases same : token = ⟨tick, tokenId⟩
    · subst same
      exact .inr ⟨rfl, by simp [OwnershipStore.recordMint]⟩
    · exact .inl (OwnershipStore.sameToken_recordMint _ seq score toSpk same)
  owned := by
    intro token present
    simp only [OwnershipStore.recordMint, Partition.get_insert]
    split
    · rfl
    · exact present

theorem processMint {entropy score : ℕ} {common : OperationCommon} {info : MintInfo}
    {isDeployment : Bool} {outcome : Except CtxValidationError MintInfo}
    (success : processMint db entropy score common info isDeployment = .ok (db', outcome)) :
    Minted common.tick db db' := by
  cases processMint_writes success with
  | inl refused =>
      obtain ⟨_, _, same⟩ := refused
      subst same
      exact .refl _ _
  | inr written =>
      obtain ⟨ranges, seq, tokenId, _, _, same, frame⟩ := written
      subst same
      exact .record seq tokenId score info.toSpk frame

theorem premintLoop {common : OperationCommon} {info : DeployInfo} {score count : ℕ}
    {error : Option CtxValidationError}
    (success : premintLoop common info score count db = .ok (db', error)) :
    Minted common.tick db db' := by
  induction count generalizing db with
  | zero =>
      cases success
      exact .refl _ _
  | succ count ih =>
      unfold Krc721.premintLoop at success
      split at success
      · cases success
      · rename_i refused
        cases success
        exact .processMint refused
      · rename_i minted
        exact (Minted.processMint minted).trans (ih success)

theorem processDeployment {score : ℕ} {common : OperationCommon} {info : DeployInfo}
    {error : Option CtxValidationError}
    (success : processDeployment db score common info = .ok (db', error)) :
    Minted common.tick db db' := by
  unfold Krc721.processDeployment at success
  split at success
  · split at success
    · cases success
    · cases success
      exact .refl _ _
  · exact (Minted.register common.tick db _).trans (.premintLoop success)

end Minted

theorem applyOperation_log {kaspa : Kaspa} {db db' : Db} {context : ContextOperation}
    {checked : CheckedOperation} (success : applyOperation kaspa db context = .ok (db', checked)) :
    db'.toLogStore = db.toLogStore := by
  unfold applyOperation at success
  cases kind : context.operation.info with
  | deploy info =>
      simp only [kind] at success
      split at success
      · cases success
      · rename_i deployment
        cases success
        exact (Minted.processDeployment deployment).log
  | mint info =>
      simp only [kind] at success
      split at success
      · cases success
      · rename_i refused
        cases success
        exact (Minted.processMint refused).log
      · rename_i minted
        cases success
        exact (Minted.processMint minted).log
  | transfer info =>
      simp only [kind] at success
      cases success
      unfold processTransfer
      split
      · rfl
      · split
        · rfl
        · split
          · rfl
          · rfl
  | discount info =>
      simp only [kind] at success
      cases success
      unfold processDiscount
      split
      · rfl
      · split
        · rfl
        · split
          · rfl
          · rfl
  | list info =>
      simp only [kind] at success
      cases success
      unfold processList
      split
      · rfl
      · split
        · rfl
        · split
          · rfl
          · split
            · rfl
            · split
              · rfl
              · rfl
  | send info =>
      simp only [kind] at success
      cases success
      unfold processSend
      split
      · rfl
      · split
        · rfl
        · simp only [Db.removeListing]
          split
          · rfl
          · rfl

/-! The rows an operation is about. -/

/-- The operation may write rows of a token: it creates the token, or it names it. -/
def Operation.Concerns (operation : Operation) (db db' : Db) (token : OwnershipKey) : Prop :=
  match operation.info with
  | .deploy _ | .mint _ => token.tick = operation.common.tick ∧
      db.currentOwnership.get token = none ∧ (db'.currentOwnership.get token).isSome
  | .transfer info => token = ⟨operation.common.tick, info.tokenId⟩
  | .discount _ => False
  | .list info => token = ⟨operation.common.tick, info.tokenId⟩
  | .send info => token = ⟨operation.common.tick, info.tokenId⟩

/-- The operation may write the range rows of a tick. -/
def Operation.Supplies (operation : Operation) (tick : Tick) : Prop :=
  match operation.info with
  | .deploy _ | .mint _ => tick = operation.common.tick
  | _ => False

/-- The operation hands a token of its owner to somebody else. -/
def Operation.HandsOver (operation : Operation) (db : Db) (token : OwnershipKey)
    (owner : ScriptPublicKey) : Prop :=
  (∃ info, operation.info = .transfer info ∧ token = ⟨operation.common.tick, info.tokenId⟩ ∧
    operation.common.sender = owner ∧ db.listings.get token = none) ∨
  ∃ info buyer listing, operation.info = .send info ∧
    token = ⟨operation.common.tick, info.tokenId⟩ ∧ info.buyer = some buyer ∧
    db.listings.get token = some listing ∧ info.listingUtxoTxid = listing.listingTxId ∧
    listing.seller = owner ∧ Backed db.toLogStore token listing

/-- What an operation did to the tokens, the listings and the ranges it may do. -/
structure Authorised (db : Db) (operation : Operation) (db' : Db) (accepted : Prop) :
    Prop where
  owner : ∀ token before, db.currentOwnership.get token = some before →
    (db'.currentOwnership.get token).map (·.owner) ≠ some before.owner →
      operation.HandsOver db token before.owner ∧ accepted
  tokens : ∀ token, ¬ operation.Concerns db db' token →
    db.toOwnershipStore.SameToken db'.toOwnershipStore token ∧ db.SameListing db' token
  ranges : ∀ tick, ¬ operation.Supplies tick →
    db.toRangeStore.SameRows db'.toRangeStore tick

namespace Authorised

variable {kaspa : Kaspa} {db db' : Db} {operation : Operation}

theorem refl (db : Db) (operation : Operation) (accepted : Prop) :
    Authorised db operation db accepted where
  owner := by
    intro token before owned changed
    rw [owned] at changed
    exact absurd rfl changed
  tokens := fun token _ => ⟨.refl _ token, .refl db token⟩
  ranges := fun tick _ => .refl _ tick

theorem record {checked : CheckedOperation}
    (authorised : Authorised db operation db' (checked = ⟨operation, none⟩)) (score : ℕ) :
    Authorised db operation (db'.recordOperation score checked)
      ((db'.recordOperation score checked).operationHistory.get score =
        some ⟨operation, none⟩) where
  owner := by
    intro token before owned changed
    obtain ⟨handsOver, accepted⟩ := authorised.owner token before owned changed
    refine ⟨handsOver, ?_⟩
    rw [accepted]
    simp [Db.recordOperation]
  tokens := by
    intro token unconcerned
    obtain ⟨rows, listing⟩ := authorised.tokens token unconcerned
    exact ⟨rows, listing.listings, listing.byTick, listing.byAddress⟩
  ranges := authorised.ranges

/-- Mints are authorised when they leave the existing tokens alone. -/
theorem of_minted {accepted : Prop} (minted : Minted operation.common.tick db db')
    (kind : (∃ info, operation.info = .deploy info) ∨ ∃ info, operation.info = .mint info)
    (existing : ∀ token, (db.currentOwnership.get token).isSome →
      db.toOwnershipStore.SameToken db'.toOwnershipStore token) :
    Authorised db operation db' accepted where
  owner := by
    intro token before owned changed
    have same := (existing token (by rw [owned]; rfl)).current
    rw [same, owned] at changed
    exact absurd rfl changed
  tokens := by
    intro token unconcerned
    refine ⟨?_, minted.listing token⟩
    cases minted.tokens token with
    | inl same => exact same
    | inr created =>
        refine existing token ?_
        rw [Option.isSome_iff_ne_none]
        intro unowned
        refine unconcerned ?_
        unfold Operation.Concerns
        rcases kind with ⟨info, kind⟩ | ⟨info, kind⟩
        all_goals
          rw [kind]
          exact ⟨created.1, unowned, created.2⟩
  ranges := by
    intro tick unsupplied
    refine minted.ranges tick fun same => unsupplied ?_
    unfold Operation.Supplies
    rcases kind with ⟨info, kind⟩ | ⟨info, kind⟩
    all_goals
      rw [kind]
      exact same

variable {bound txScore : ℕ} {error : Option CtxValidationError}

theorem deploy {info : DeployInfo} (wf : db.toLedger.Wf bound)
    (kind : operation.info = .deploy info)
    (success : processDeployment db txScore operation.common info = .ok (db', error)) :
    Authorised db operation db' ((⟨operation, error⟩ : CheckedOperation) = ⟨operation, none⟩) := by
  cases found : db.collectionRegistry.get operation.common.tick with
  | some entry =>
      simp only [processDeployment, found] at success
      split at success
      · cases success
      · cases success
        exact .refl db operation _
  | none =>
      have minted := Minted.processDeployment success
      refine .of_minted minted (.inl ⟨info, kind⟩) fun token present => ?_
      cases minted.tokens token with
      | inl same => exact same
      | inr created =>
          obtain ⟨value, owned⟩ := Option.isSome_iff_exists.1 present
          have free : db.collectionRegistry.get token.tick = none := by
            rw [created.1]
            exact found
          have member := Applied.mem_of_owned wf (wf.undeployed free 0 0) owned
          cases member

theorem mint {info : MintInfo} {entropy : ℕ} {outcome : Except CtxValidationError MintInfo}
    {accepted : Prop} (wf : db.toLedger.Wf bound) (kind : operation.info = .mint info)
    (success : processMint db entropy txScore operation.common info false =
      .ok (db', outcome)) : Authorised db operation db' accepted := by
  cases found : db.collectionRegistry.get operation.common.tick with
  | none =>
      simp only [processMint, found] at success
      cases success
      exact .refl db operation _
  | some entry =>
      obtain ⟨sound, ids, supply⟩ := wf.deployed found
      have minted := Minted.processMint success
      cases processMint_outcome entropy txScore info found sound supply with
      | inl refused =>
          obtain ⟨reason, refused⟩ := refused
          rw [refused] at success
          cases success
          exact .refl db operation _
      | inr drawn =>
          obtain ⟨ranges, tokenId, drawn, mint⟩ := drawn
          rw [drawn] at success
          cases success
          refine .of_minted minted (.inr ⟨info, kind⟩) fun token present => ?_
          refine OwnershipStore.sameToken_recordMint _ _ _ _ ?_
          intro same
          subst same
          obtain ⟨value, owned⟩ := Option.isSome_iff_exists.1 present
          exact mint.fresh (Applied.mem_of_owned wf supply owned)

/-- A transfer is by the owner, and refused while the token is listed. -/
theorem transfer {info : TransferInfo} (kind : operation.info = .transfer info)
    (success : processTransfer db txScore operation.common info = (db', error)) :
    Authorised db operation db' ((⟨operation, error⟩ : CheckedOperation) = ⟨operation, none⟩) := by
  rcases processTransfer_cases db txScore operation.common info with
    ⟨_, refused⟩ | ⟨current, owned, bySender, unlisted, accepted⟩
  · rw [refused] at success
    cases success
    exact .refl db operation _
  · rw [accepted] at success
    cases success
    constructor
    case owner =>
      intro token before ownedBefore changed
      by_cases same : token = ⟨operation.common.tick, info.tokenId⟩
      · subst same
        rw [owned] at ownedBefore
        cases ownedBefore
        exact ⟨.inl ⟨info, kind, rfl, bySender.symm, unlisted⟩, rfl⟩
      · have rows := (OwnershipStore.sameToken_recordTransfer db.toOwnershipStore txScore
          current.owner info.toSpk same).current
        rw [rows, ownedBefore] at changed
        exact absurd rfl changed
    case tokens =>
      intro token unconcerned
      refine ⟨OwnershipStore.sameToken_recordTransfer _ _ _ _ fun same => unconcerned ?_,
        ⟨rfl, rfl, fun _ => rfl⟩⟩
      simp only [Operation.Concerns, kind, same]
    case ranges => exact fun tick _ => .refl _ tick

theorem discount {info : DiscountInfo} {accepted : Prop}
    (success : processDiscount db txScore operation.common info = (db', error)) :
    Authorised db operation db' accepted := by
  rcases processDiscount_cases db txScore operation.common info with
    ⟨_, refused⟩ | ⟨_, _, _, _, granted⟩
  · rw [refused] at success
    cases success
    exact .refl db operation _
  · rw [granted] at success
    cases success
    have same := Authorised.refl db operation accepted
    exact ⟨same.owner, fun token _ => ⟨.refl _ token, rfl, rfl, fun _ => rfl⟩, same.ranges⟩

theorem list {info : ListingInfo} {accepted : Prop} (kind : operation.info = .list info)
    (success : processList kaspa db txScore operation.common info = (db', error)) :
    Authorised db operation db' accepted := by
  rcases processList_cases db txScore operation.common kaspa info with
    ⟨_, refused⟩ | ⟨_, _, _, _, _, _, _, listed⟩
  · rw [refused] at success
    cases success
    exact .refl db operation _
  · rw [listed] at success
    cases success
    have same := Authorised.refl db operation accepted
    refine ⟨same.owner, fun token unconcerned => ⟨.refl _ token, ?_⟩, same.ranges⟩
    refine Db.sameListing_insertListing db _ fun same => unconcerned ?_
    simp only [Operation.Concerns, kind, same]

/-- A sale is from the seller of the listing, who is still the owner. -/
theorem send {info : SendInfo} (wf : db.toLedger.Wf bound) (kind : operation.info = .send info)
    (success : processSend db txScore operation.common info = (db', error)) :
    Authorised db operation db' ((⟨operation, error⟩ : CheckedOperation) = ⟨operation, none⟩) := by
  have concerned : ∀ {token db'}, ¬ operation.Concerns db db' token →
      token ≠ ⟨operation.common.tick, info.tokenId⟩ := by
    intro token db' unconcerned same
    exact unconcerned (by simp only [Operation.Concerns, kind, same])
  rcases processSend_cases db txScore operation.common info with
    ⟨_, refused⟩ | ⟨listing, found, spends, ⟨buyer, toBuyer, sold⟩ | ⟨_, cancelled⟩⟩
  · rw [refused] at success
    cases success
    exact .refl db operation _
  · rw [sold] at success
    cases success
    constructor
    case owner =>
      intro token before owned changed
      by_cases same : token = ⟨operation.common.tick, info.tokenId⟩
      · subst same
        obtain ⟨backed, modTxScore, held⟩ := wf.listed found
        rw [held] at owned
        cases owned
        exact ⟨.inr ⟨info, buyer, listing, kind, rfl, toBuyer, found, spends, rfl, backed⟩, rfl⟩
      · have rows := (OwnershipStore.sameToken_recordTransfer db.toOwnershipStore txScore
          listing.seller buyer same).current
        simp only [Db.removeListing] at changed
        rw [rows, owned] at changed
        exact absurd rfl changed
    case tokens =>
      intro token unconcerned
      have different := concerned unconcerned
      have removed := Db.sameListing_removeListing db listing.seller different
      exact ⟨OwnershipStore.sameToken_recordTransfer _ _ _ _ different,
        removed.listings, removed.byTick, removed.byAddress⟩
    case ranges => exact fun tick _ => .refl _ tick
  · rw [cancelled] at success
    cases success
    have same := Authorised.refl db operation
      ((⟨operation, none⟩ : CheckedOperation) = ⟨operation, none⟩)
    exact ⟨same.owner, fun token unconcerned => ⟨.refl _ token,
      Db.sameListing_removeListing db _ (concerned unconcerned)⟩, same.ranges⟩

end Authorised

/-- Every operation, of any kind and any score, processed between the steps of a run without forks
or inside the mergeset of a new block: owners change by an accepted transfer of the owner or an
accepted sale of the owner's listing, and the rows of all other tokens and ticks stay. -/
theorem UnforkedProcessing.authorised {kaspa : Kaspa} {db db' : Db} {diff diff' : StatsDiffs}
    {context : ContextOperation} (processing : UnforkedProcessing kaspa db)
    (success : processNftOperation kaspa db diff context = .ok (db', diff')) :
    Authorised db context.operation db'
      (db'.operationHistory.get context.txScore = some ⟨context.operation, none⟩) := by
  obtain ⟨bound, replay⟩ := processing.replay
  have wf := replay.wf
  unfold processNftOperation at success
  split at success
  · cases success
  · rename_i between checked applied
    cases success
    refine Authorised.record ?_ context.txScore
    unfold applyOperation at applied
    cases kind : context.operation.info with
    | deploy info =>
        simp only [kind] at applied
        split at applied
        · cases applied
        · rename_i deployment
          cases applied
          exact .deploy wf kind deployment
    | mint info =>
        simp only [kind] at applied
        split at applied
        · cases applied
        · rename_i refused
          cases applied
          exact .mint wf kind refused
        · rename_i minted
          cases applied
          exact .mint wf kind minted
    | transfer info =>
        simp only [kind] at applied
        cases applied
        exact .transfer kind rfl
    | discount info =>
        simp only [kind] at applied
        cases applied
        exact .discount rfl
    | list info =>
        simp only [kind] at applied
        cases applied
        exact .list kind rfl
    | send info =>
        simp only [kind] at applied
        cases applied
        exact .send wf kind rfl

namespace Sample

theorem deployBlock_admissible : Admissible kaspa .new [deployBlock] where
  valid := fun mergeset member => chain_valid.valid mergeset
    (List.mem_append_left _ member)
  ascending := by simp
  unforked := .new _

/-- The database in which the token of alice is listed. -/
def offered : Db := added .new [deployBlock]

theorem offered_reachable : UnforkedReachable kaspa offered :=
  added_reachable .new deployBlock_admissible

def sale : ContextOperation := ⟨9, operation 3 alice (.send ⟨1, 50, some bob, 2⟩), 6⟩

end Sample

theorem UnforkedProcessing.authorised_sale : ∃ db' diff',
    processNftOperation Sample.kaspa Sample.offered 0 Sample.sale = .ok (db', diff') ∧
      Authorised Sample.offered Sample.sale.operation db'
        (db'.operationHistory.get Sample.sale.txScore =
          some ⟨Sample.sale.operation, none⟩) := by
  obtain ⟨db', diff', success⟩ : ∃ db' diff', processNftOperation Sample.kaspa Sample.offered 0
    Sample.sale = .ok (db', diff') := ⟨_, _, rfl⟩
  exact ⟨db', diff', success,
    UnforkedProcessing.authorised (.committed Sample.offered_reachable) success⟩

namespace Sample

/-- The forked mints are removed, and bob mints. -/
def forkedOwners : List ChainStep := forkedMints ++ [.add [block 4 401 0 [mints 5]]]

theorem forkedOwners_reachable : Reachable kaspa (reached forkedOwners) :=
  reached_reachable (by decide) (by decide +kernel)

def nextMint : ContextOperation := ⟨10000, mints 6, 0⟩

end Sample

/-- The next mint of bob takes the token of alice. -/
theorem Processing.not_authorised_forked : ∃ db' diff,
    Reachable Sample.kaspa (Sample.reached Sample.forkedOwners) ∧
      processNftOperation Sample.kaspa (Sample.reached Sample.forkedOwners) 0 Sample.nextMint =
        .ok (db', diff) ∧
      ¬ Authorised (Sample.reached Sample.forkedOwners) Sample.nextMint.operation db'
        (db'.operationHistory.get Sample.nextMint.txScore =
          some ⟨Sample.nextMint.operation, none⟩) := by
  have owned : ((Sample.reached Sample.forkedOwners).currentOwnership.get ⟨Sample.tick, 1⟩).map
      (·.owner) = some Sample.alice := by decide +kernel
  have taken : ((processNftOperation Sample.kaspa (Sample.reached Sample.forkedOwners) 0
      Sample.nextMint).toOption.bind fun (db', _) =>
        (db'.currentOwnership.get ⟨Sample.tick, 1⟩).map (·.owner)) = some Sample.bob := by
    decide +kernel
  obtain ⟨before, found, rfl'⟩ := Option.map_eq_some_iff.1 owned
  cases success : processNftOperation Sample.kaspa (Sample.reached Sample.forkedOwners) 0
      Sample.nextMint with
  | error fault =>
      rw [success] at taken
      cases taken
  | ok after =>
      obtain ⟨db', diff⟩ := after
      rw [success] at taken
      have taken : (db'.currentOwnership.get ⟨Sample.tick, 1⟩).map (·.owner) =
        some Sample.bob := taken
      refine ⟨db', diff, Sample.forkedOwners_reachable, rfl, fun authorised => ?_⟩
      obtain ⟨handsOver, _⟩ := authorised.owner ⟨Sample.tick, 1⟩ before found (by
        rw [taken, rfl']
        decide)
      rcases handsOver with ⟨info, kind, _⟩ | ⟨info, buyer, listing, kind, _⟩
      · cases kind
      · cases kind

end Krc721
