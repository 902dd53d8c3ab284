import Krc721.Processor.GuardedRun
import Krc721.Processor.ReachableInvariants

/-! The discounts: two partitions, one read by a mint and one scanned by a removal, and the
accepted discounts of the log that both are written from. -/

set_option autoImplicit false

namespace Krc721

open OrderedStore

/-- The log holds an accepted discount of a collection for an address. -/
def LogStore.Discounted (log : LogStore) (tick : Tick) (spk : ScriptPublicKey)
    (score fee : ℕ) : Prop :=
  ∃ common, common.tick = tick ∧
    log.operationHistory.get score = some ⟨⟨common, .discount ⟨spk, fee⟩⟩, none⟩

/-- A new score does not change what the log holds below it. -/
theorem LogStore.discounted_record {db : Db} {bound : ℕ} {context : ContextOperation}
    {checked : CheckedOperation} (wf : db.toLogStore.Wf bound) (reached : bound ≤ context.txScore)
    {tick : Tick} {spk : ScriptPublicKey} {score fee : ℕ} :
    (db.recordOperation context.txScore checked).Discounted tick spk score fee ↔
      db.Discounted tick spk score fee ∨ score = context.txScore ∧ checked.error = none ∧
        checked.operation.common.tick = tick ∧
        checked.operation.info = .discount ⟨spk, fee⟩ := by
  have absent : db.operationHistory.get context.txScore = none := by
    cases stored : db.operationHistory.get context.txScore with
    | none => rfl
    | some other =>
        have low := wf.under _ _ stored
        simp only at low
        omega
  obtain ⟨⟨common, info⟩, error⟩ := checked
  simp only [LogStore.Discounted, Db.recordOperation, Partition.get_insert]
  by_cases same : context.txScore = score
  · subst same
    simp only [if_true, absent, reduceCtorEq, and_false, exists_false, false_or, true_and,
      Option.some.injEq, CheckedOperation.mk.injEq, Operation.mk.injEq]
    constructor
    · rintro ⟨_, rfl, ⟨rfl, rfl⟩, rfl⟩
      exact ⟨rfl, rfl, rfl⟩
    · rintro ⟨rfl, rfl, rfl⟩
      exact ⟨common, rfl, ⟨rfl, rfl⟩, rfl⟩
  · simp only [same, if_false, Ne.symm same, false_and, or_false]

/-! What an operation does to the discounts. -/

/-- The operation is an accepted discount, which is written to both partitions. -/
structure GrantsDiscount (db : Db) (context : ContextOperation) (db' : Db)
    (checked : CheckedOperation) (info : DiscountInfo) (entry : ScoredDeployInfoWithCommon) :
    Prop where
  checked : checked = ⟨context.operation, none⟩
  kind : context.operation.info = .discount info
  found : db.collectionRegistry.get context.operation.common.tick = some entry
  byDeployer : context.operation.common.sender = entry.info.info.deployer
  lower : info.fee < royaltyFee entry.info.info.royalty
  vip : db'.vip = db.vip.insert ⟨info.toSpk, context.operation.common.tick,
    u64Max - context.txScore, info.fee⟩ ()
  scoreToDiscount : db'.scoreToDiscount = db.scoreToDiscount.insert
    ⟨context.txScore, context.operation.common.tick, info.toSpk⟩ info.fee
  collections : db'.toCollectionStore = db.toCollectionStore

structure GrantsNothing (db db' : Db) (checked : CheckedOperation) : Prop where
  vip : db'.vip = db.vip
  scoreToDiscount : db'.scoreToDiscount = db.scoreToDiscount
  other : checked.error = none → ∀ info, checked.operation.info ≠ .discount info
  registry : ∀ tick entry, db.collectionRegistry.get tick = some entry →
    db'.collectionRegistry.get tick = some entry

theorem Applied.grants {kaspa : Kaspa} {db db' : Db} {context : ContextOperation}
    {checked : CheckedOperation} (applied : Applied kaspa db context db' checked) :
    GrantsNothing db db' checked ∨
      ∃ info entry, GrantsDiscount db context db' checked info entry := by
  have others {info : OperationInfo} (kind : context.operation.info = info)
      (different : ∀ discount, info ≠ .discount discount) (discount : DiscountInfo) :
      context.operation.info ≠ .discount discount := kind ▸ different discount
  cases applied with
  | rejected error => exact .inl ⟨rfl, rfl, by simp, fun _ _ found => found⟩
  | deployed info kind free =>
      refine .inl ⟨rfl, rfl, fun _ => others kind (by simp), fun tick entry found => ?_⟩
      rw [Partition.get_insert, if_neg]
      · exact found
      · rintro rfl
        rw [free] at found
        cases found
  | minted info entry ids tokenId ranges kind found mint supply =>
      exact .inl ⟨rfl, rfl, by simp, fun _ _ found => found⟩
  | transferred info current kind owned bySender unlisted =>
      exact .inl ⟨rfl, rfl, fun _ => others kind (by simp), fun _ _ found => found⟩
  | discounted info entry kind found byDeployer lower =>
      exact .inr ⟨info, entry, rfl, kind, found, byDeployer, lower, rfl, rfl, rfl⟩
  | listed info current kind owned bySender unlisted locked =>
      exact .inl ⟨rfl, rfl, fun _ => others kind (by simp), fun _ _ found => found⟩
  | sold info listing buyer kind found spends toBuyer =>
      exact .inl ⟨rfl, rfl, fun _ => others kind (by simp), fun _ _ found => found⟩
  | cancelled info listing kind found spends noBuyer =>
      exact .inl ⟨rfl, rfl, fun _ => others kind (by simp), fun _ _ found => found⟩

/-- The log holds the discounts it held, and the one that was granted. -/
theorem Applied.discounted_iff {kaspa : Kaspa} {db db' : Db} {context : ContextOperation}
    {checked : CheckedOperation} (applied : Applied kaspa db context db' checked) {bound : ℕ}
    (wf : db.toLogStore.Wf bound) (reached : bound ≤ context.txScore) {tick : Tick}
    {spk : ScriptPublicKey} {score fee : ℕ} :
    (db'.recordOperation context.txScore checked).Discounted tick spk score fee ↔
      db.Discounted tick spk score fee ∨ score = context.txScore ∧ ∃ entry,
        GrantsDiscount db context db' checked ⟨spk, fee⟩ entry ∧
          context.operation.common.tick = tick := by
  have sameLog := applied.frame.1
  rw [LogStore.discounted_record (sameLog ▸ wf) reached, sameLog]
  refine or_congr_right (and_congr_right fun _ => ?_)
  rcases applied.grants with nothing | ⟨info, entry, grants⟩
  · constructor
    · rintro ⟨accepted, _, kind⟩
      exact absurd kind (nothing.other accepted _)
    · rintro ⟨entry, grants, _⟩
      have kind := grants.kind
      have other := nothing.other (by rw [grants.checked]) ⟨spk, fee⟩
      rw [grants.checked] at other
      exact absurd kind other
  · constructor
    · rintro ⟨_, tick, kind⟩
      rw [grants.checked] at tick kind
      simp only at tick kind
      rw [grants.kind, OperationInfo.discount.injEq] at kind
      exact ⟨entry, kind ▸ grants, tick⟩
    · rintro ⟨entry', grants', tick⟩
      rw [grants'.checked]
      exact ⟨rfl, tick, grants'.kind⟩

/-! The discounts in force. -/

/-- A row of `vip` for every accepted discount of the log, and no other rows. -/
theorem Replay.isSome_vip_iff {kaspa : Kaspa} {bound : ℕ} {ledger : Ledger}
    (replay : Replay kaspa bound ledger) {key : VipKey} :
    (ledger.vip.get key).isSome ↔ ∃ score, score ≤ u64Max ∧
      key.reversedScore = u64Max - score ∧
        ledger.Discounted key.tick key.spk score key.fee := by
  induction replay with
  | empty => simp [LogStore.Discounted]
  | @step bound db db' context checked earlier reached le sound fresh applied ih =>
      have logged (score : ℕ) := @Applied.discounted_iff _ _ _ _ _ applied _ earlier.wf.log
        reached key.tick key.spk score key.fee
      simp only [logged]
      rcases applied.grants with nothing | ⟨info, entry, grants⟩
      · have vip : (db'.recordOperation context.txScore checked).vip = db.vip := nothing.vip
        rw [vip, ih]
        refine exists_congr fun score => and_congr_right fun _ => and_congr_right fun _ => ?_
        refine (or_iff_left ?_).symm
        rintro ⟨_, entry, grants, _⟩
        have other := nothing.other (by rw [grants.checked]) ⟨key.spk, key.fee⟩
        rw [grants.checked] at other
        exact other grants.kind
      · have vip : (db'.recordOperation context.txScore checked).vip = _ := grants.vip
        rw [vip, Partition.get_insert]
        constructor
        · intro present
          split at present
          · rename_i same
            subst same
            exact ⟨context.txScore, le, rfl, .inr ⟨rfl, entry, grants, rfl⟩⟩
          · obtain ⟨score, scoreLe, reversed, held⟩ := ih.1 present
            exact ⟨score, scoreLe, reversed, .inl held⟩
        · rintro ⟨score, scoreLe, reversed, held | ⟨rfl, entry', grants', tick⟩⟩
          · split
            · rfl
            · exact ih.2 ⟨score, scoreLe, reversed, held⟩
          · have same := grants'.kind
            rw [grants.kind, OperationInfo.discount.injEq] at same
            rw [if_pos]
            · rfl
            · rw [VipKey.mk.injEq, same, reversed, tick]
              exact ⟨rfl, rfl, rfl, rfl⟩

theorem Replay.discounted_lt {kaspa : Kaspa} {bound : ℕ} {ledger : Ledger}
    (replay : Replay kaspa bound ledger) {tick : Tick} {spk : ScriptPublicKey} {score fee : ℕ}
    (held : ledger.Discounted tick spk score fee) :
    score ≤ u64Max ∧ ∃ entry, ledger.collectionRegistry.get tick = some entry ∧
      fee < royaltyFee entry.info.info.royalty := by
  induction replay with
  | empty => simp [LogStore.Discounted] at held
  | @step bound db db' context checked earlier reached le sound fresh applied ih =>
      change _ ∧ ∃ entry, db'.collectionRegistry.get tick = some entry ∧ _
      rw [applied.discounted_iff earlier.wf.log reached] at held
      rcases held with held | ⟨rfl, entry, grants, rfl⟩
      · obtain ⟨scoreLe, entry, found, lower⟩ := ih held
        refine ⟨scoreLe, entry, ?_, lower⟩
        rcases applied.grants with nothing | ⟨info, entry', grants⟩
        · exact nothing.registry _ _ found
        · rw [congrArg CollectionStore.collectionRegistry grants.collections]
          exact found
      · refine ⟨le, entry, ?_, grants.lower⟩
        rw [congrArg CollectionStore.collectionRegistry grants.collections]
        exact grants.found

/-! The two partitions. -/

/-- The two partitions hold the same discounts, each of them an accepted one of the log. -/
structure DiscountsMirrored (db : Db) : Prop where
  mirrored : ∀ spk tick score fee, score ≤ u64Max →
    ((db.vip.get ⟨spk, tick, u64Max - score, fee⟩).isSome ↔
      db.scoreToDiscount.get ⟨score, tick, spk⟩ = some fee)
  logged : ∀ spk tick score fee, db.scoreToDiscount.get ⟨score, tick, spk⟩ = some fee →
    db.Discounted tick spk score fee

/-- A run whose removals take no accepted discount back. -/
abbrev DiscountRun (kaspa : Kaspa) : Db → Prop :=
  UnforkedRun kaspa (fun _ _ => True) fun db removed forced => ∀ threshold,
    removalThreshold kaspa db removed forced = some threshold →
      ∀ tick spk score fee, db.Discounted tick spk score fee → score < threshold

/-- The index by score holds exactly the accepted discounts of the log. -/
def Db.ScoresLogged (db : Db) : Prop :=
  ∀ score tick spk fee, db.scoreToDiscount.get ⟨score, tick, spk⟩ = some fee ↔
    db.Discounted tick spk score fee

theorem LogStore.Wf.discounted_lt {log : LogStore} {bound : ℕ} (wf : log.Wf bound) {tick : Tick}
    {spk : ScriptPublicKey} {score fee : ℕ} (held : log.Discounted tick spk score fee) :
    score < bound := by
  obtain ⟨common, _, stored⟩ := held
  exact wf.under _ _ stored

theorem Db.ScoresLogged.step {kaspa : Kaspa} {db db' : Db} {context : ContextOperation}
    {checked : CheckedOperation} {bound : ℕ} (scoresLogged : db.ScoresLogged)
    (wf : db.toLedger.Wf bound) (reached : bound ≤ context.txScore)
    (applied : Applied kaspa db context db' checked) :
    (db'.recordOperation context.txScore checked).ScoresLogged := by
  intro score tick spk fee
  rw [applied.discounted_iff wf.log reached]
  change db'.scoreToDiscount.get _ = some fee ↔ _
  have earlier := scoresLogged score tick spk fee
  rcases applied.grants with nothing | ⟨info, entry, grants⟩
  · rw [nothing.scoreToDiscount, earlier]
    refine (or_iff_left ?_).symm
    rintro ⟨_, entry, grants, _⟩
    have other := nothing.other (by rw [grants.checked]) ⟨spk, fee⟩
    rw [grants.checked] at other
    exact other grants.kind
  · rw [grants.scoreToDiscount, Partition.get_insert]
    split
    · rename_i same
      rw [ScoredDiscountKey.mk.injEq] at same
      obtain ⟨sameScore, sameTick, sameSpk⟩ := same
      have fresh : ¬ db.Discounted tick spk score fee := fun held => by
        have low := wf.log.discounted_lt held
        omega
      rw [or_iff_right fresh]
      constructor
      · intro sameFee
        rw [Option.some_inj] at sameFee
        refine ⟨sameScore.symm, entry, ?_, sameTick⟩
        rw [← sameSpk, ← sameFee]
        exact grants
      · rintro ⟨_, entry', grants', _⟩
        have same := grants'.kind
        rw [grants.kind, OperationInfo.discount.injEq] at same
        rw [same]
    · rename_i different
      rw [earlier]
      refine (or_iff_left ?_).symm
      rintro ⟨sameScore, entry', grants', sameTick⟩
      have same := grants'.kind
      rw [grants.kind, OperationInfo.discount.injEq] at same
      exact different (by rw [same, sameScore, sameTick])

/-- A removal leaves the discounts below its threshold in the log. -/
theorem Ledger.Extends.discounted_iff {old new : Ledger} {threshold : ℕ}
    (extended : old.Extends threshold new) {tick : Tick} {spk : ScriptPublicKey}
    {score fee : ℕ} :
    old.Discounted tick spk score fee ↔ new.Discounted tick spk score fee ∧ score < threshold := by
  unfold LogStore.Discounted
  rw [← extended.operationHistory]
  simp only [Partition.get_below_eq_some_iff]
  constructor
  · rintro ⟨common, sameTick, stored, below⟩
    exact ⟨⟨common, sameTick, stored⟩, below⟩
  · rintro ⟨⟨common, sameTick, stored⟩, below⟩
    exact ⟨common, sameTick, stored, below⟩

namespace DiscountRun

variable {kaspa : Kaspa} {db : Db}

theorem scoresLogged (run : DiscountRun kaspa db) : db.ScoresLogged := by
  refine UnforkedRun.invariant Db.ScoresLogged run ?_ ?_ ?_ fun _ _ kept => kept
  · intro score tick spk fee
    simp [Db.new, LogStore.Discounted]
  · intro db db' mergesets _ _ grown kept
    refine grown.preserves Db.ScoresLogged (fun _ _ _ kept => kept) ?_ kept
    intro bound db db' context checked wf reached _ applied kept
    exact kept.step wf reached applied
  · intro db db' removed forced _ guarded rolledBack kept score tick spk fee
    rw [rolledBack.scoreToDiscount, kept score tick spk fee]
    cases found : removalThreshold kaspa db removed forced with
    | none => rw [congrArg Ledger.toLogStore (rolledBack.unchanged found)]
    | some threshold =>
        rw [(rolledBack.extended threshold found).discounted_iff]
        exact (and_iff_left_of_imp (guarded threshold found tick spk score fee)).symm

/-- In every database of a run the two partitions hold the accepted discounts of the log. -/
theorem mirrored (run : DiscountRun kaspa db) : DiscountsMirrored db := by
  have logged := scoresLogged run
  obtain ⟨bound, replay⟩ := run.consistent.replay
  refine ⟨fun spk tick score fee le => ?_, fun spk tick score fee => (logged _ _ _ _).1⟩
  rw [logged, replay.isSome_vip_iff]
  constructor
  · rintro ⟨score', le', reversed, held⟩
    simp only at reversed held
    have same : score = score' := by omega
    exact same ▸ held
  · exact fun held => ⟨score, le, rfl, held⟩

end DiscountRun

namespace Sample

/-- Alice deploys with a royalty. -/
def royaltyBlock : Mergeset where
  operations := [
    ⟨0, 0, operation 1 alice (.deploy ⟨.remote "ipfs", 3, alice, some ⟨alice, 10⟩, 0, 0⟩)⟩]
  entropy := 5
  blueScore := 1
  acceptedChainBlockHash := 201

/-- Alice grants a discount to bob. -/
def discountBlock : Mergeset where
  operations := [⟨0, 0, operation 2 alice (.discount ⟨bob, 4⟩)⟩]
  entropy := 6
  blueScore := 2
  acceptedChainBlockHash := 202

theorem discount_admissible : Admissible kaspa .new [royaltyBlock, discountBlock] :=
  ⟨⟨by decide, by decide⟩, .new _⟩

def discounted : Db := added .new [royaltyBlock, discountBlock]

theorem discounted_run : DiscountRun kaspa discounted := by
  obtain ⟨diff, success⟩ := processAdditions_added .new discount_admissible
  exact UnforkedRun.added .new discount_admissible trivial success

end Sample

theorem DiscountRun.mirrored_discounted : DiscountsMirrored Sample.discounted :=
  DiscountRun.mirrored Sample.discounted_run

/-- A removal of the discount leaves its row in the index by score. -/
theorem discount_not_removed : ∃ db' diff,
    processRemoval Sample.kaspa Sample.discounted [202] none = .ok (db', diff) ∧
      UnforkedReachable Sample.kaspa db' ∧
      db'.scoreToDiscount.get ⟨4000, Sample.tick, Sample.bob⟩ = some 4 ∧
      ¬ DiscountsMirrored db' := by
  have reachable : UnforkedReachable Sample.kaspa Sample.discounted :=
    UnforkedRun.unforkedReachable Sample.discounted_run
  obtain ⟨db', diff, success, rolledBack⟩ := reachable.consistent.processRemoval [202] none
  have row : db'.scoreToDiscount.get ⟨4000, Sample.tick, Sample.bob⟩ = some 4 := by
    rw [rolledBack.scoreToDiscount]
    decide +kernel
  have threshold : removalThreshold Sample.kaspa Sample.discounted [202] none = some 4000 := by
    decide +kernel
  refine ⟨db', diff, success, .removal reachable trivial success, row, fun mirrored => ?_⟩
  have below := (rolledBack.extended 4000 threshold).discounted_iff.1
    (mirrored.logged _ _ _ _ row)
  exact absurd below.2 (lt_irrefl _)

end Krc721
