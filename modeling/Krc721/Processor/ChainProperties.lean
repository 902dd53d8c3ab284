import Krc721.Processor.RunProperties

/-! The selected chain. A removal cuts the block partitions at the least removed blue score;
a mergeset above the tip is accepted, and its operations run without a fault. -/

set_option autoImplicit false

namespace Krc721

open OrderedStore

def BlueScoredChainBlockHash.rowScore (key : BlueScoredChainBlockHash) (_ : Unit) : ℕ :=
  key.blueScore

/-! The block partitions. -/

namespace ChainStore

/-- The reverse index holds exactly the stored blocks. -/
structure Wf (chain : ChainStore) : Prop where
  indexed : ∀ {hash score}, chain.blockhashToScore.get hash = some score ↔
    (chain.chainBlockScores.get ⟨score, hash⟩).isSome

variable {chain : ChainStore} {removed : List RpcHash} {forced : Option ℕ}

theorem foldl_removeBlock_blocks (state : RemovedBlocks) (removed : List RpcHash) :
    (removed.foldl removeBlock state).chain.chainBlockScores =
      state.chain.chainBlockScores := by
  induction removed generalizing state with
  | nil => rfl
  | cons block removed ih =>
      rw [List.foldl_cons, ih, removeBlock]
      split <;> rfl

theorem foldl_removeBlock_notFound (state : RemovedBlocks) (removed : List RpcHash)
    (unfound : (removed.foldl removeBlock state).foundRemovedBlock = false) :
    (removed.foldl removeBlock state).chain = state.chain := by
  induction removed generalizing state with
  | nil => rfl
  | cons block removed ih =>
      have kept : ∀ (blocks : List RpcHash) (state : RemovedBlocks),
          state.foundRemovedBlock = true →
            (blocks.foldl removeBlock state).foundRemovedBlock = true := by
        intro blocks
        induction blocks with
        | nil => exact fun _ found => found
        | cons block blocks ih =>
            intro state found
            refine ih _ ?_
            rw [removeBlock]
            split
            · exact found
            · rfl
      rw [List.foldl_cons] at unfound ⊢
      rw [ih _ unfound, removeBlock]
      rw [removeBlock] at unfound
      split
      · rfl
      · rename_i score found
        simp only [found] at unfound
        rw [kept _ _ rfl] at unfound
        cases unfound

theorem removeChainStateFromBlueScore_eq (chain : ChainStore) (minBlueScore : ℕ) :
    chain.removeChainStateFromBlueScore minBlueScore = {
      chainBlockScores := chain.chainBlockScores.below BlueScoredChainBlockHash.rowScore
        minBlueScore
      blockhashToScore := (chain.chainBlockScores.keysFrom ⟨minBlueScore, 0⟩).foldl
        (fun index block => index.erase block.blockHash) chain.blockhashToScore } := by
  have folded : ∀ (blocks : List BlueScoredChainBlockHash) (chain : ChainStore),
      blocks.foldl (fun chain block => ({
          chainBlockScores := chain.chainBlockScores.erase block
          blockhashToScore := chain.blockhashToScore.erase block.blockHash } : ChainStore))
        chain = {
          chainBlockScores := blocks.foldl (fun scores block => scores.erase block)
            chain.chainBlockScores
          blockhashToScore := blocks.foldl (fun index block => index.erase block.blockHash)
            chain.blockhashToScore } := by
    intro blocks
    induction blocks with
    | nil => exact fun _ => rfl
    | cons block blocks ih => exact fun chain => ih _
  unfold removeChainStateFromBlueScore
  rw [folded]
  refine ChainStore.ext ?_ rfl
  refine Partition.foldl_erase_eq_below id _ ?_ ?_
  · intro key row stored high
    refine ⟨key, Partition.mem_keysFrom.2 ⟨by rw [stored]; rfl, ?_⟩, rfl⟩
    exact BlueScoredChainBlockHash.start_le_iff.2 high
  · intro key member row _
    exact BlueScoredChainBlockHash.start_le_iff.1 (Partition.mem_keysFrom.1 member).2

/-- A removal leaves the blocks below the least removed blue score, or all of them. -/
theorem identifyReorgBlocksAndDelete_blocks (chain : ChainStore) (removed : List RpcHash)
    (forced : Option ℕ) :
    (∀ minBlueScore, (chain.identifyReorgBlocksAndDelete removed forced).2 = some minBlueScore →
      (chain.identifyReorgBlocksAndDelete removed forced).1.chainBlockScores =
        chain.chainBlockScores.below BlueScoredChainBlockHash.rowScore minBlueScore) ∧
    ((chain.identifyReorgBlocksAndDelete removed forced).2 = none →
      (chain.identifyReorgBlocksAndDelete removed forced).1 = chain) := by
  have blocks := foldl_removeBlock_blocks ⟨chain, u64Max, false⟩ removed
  have unfound := foldl_removeBlock_notFound ⟨chain, u64Max, false⟩ removed
  unfold identifyReorgBlocksAndDelete
  generalize removed.foldl removeBlock ⟨chain, u64Max, false⟩ = state at *
  cases forced with
  | none =>
      simp only
      cases found : state.foundRemovedBlock with
      | true =>
          simp only [if_true, Option.some.injEq, forall_eq', reduceCtorEq, false_implies,
            and_true]
          rw [removeChainStateFromBlueScore_eq, blocks]
      | false => exact ⟨by simp, fun _ => unfound found⟩
  | some score =>
      simp only [if_true, Option.some.injEq, forall_eq', reduceCtorEq, false_implies, and_true]
      rw [removeChainStateFromBlueScore_eq, blocks]

/-- The loop over the removed blocks: what left the index had a score that was counted. -/
structure Lookups (chain : ChainStore) (first : ℕ) (state : RemovedBlocks) : Prop where
  kept : ∀ {hash score}, state.chain.blockhashToScore.get hash = some score →
    chain.blockhashToScore.get hash = some score
  counted : ∀ {hash score}, chain.blockhashToScore.get hash = some score →
    state.chain.blockhashToScore.get hash = some score ∨
      state.foundRemovedBlock = true ∧ state.minBlueScore ≤ score
  above : first ≤ state.minBlueScore
  blocks : state.chain.chainBlockScores = chain.chainBlockScores

/-- A score that is found is the stored one, also when the tip stands in for the index. -/
theorem Lookups.lookup {first : ℕ} {state : RemovedBlocks} (lookups : Lookups chain first state)
    (wf : chain.Wf) {block : RpcHash} {score : ℕ}
    (found : state.chain.lookupRemovedBlockScore block = some score) :
    chain.blockhashToScore.get block = some score := by
  unfold lookupRemovedBlockScore at found
  split at found
  · rename_i score' stored
    cases found
    exact lookups.kept stored
  · split at found
    · cases found
    · rename_i tip last
      split at found
      · rename_i same
        cases found
        subst same
        rw [lastAcceptedBlock, lookups.blocks, Partition.lastKey_eq_some_iff] at last
        exact wf.indexed.2 last.1
      · cases found

theorem Lookups.step {first : ℕ} {state : RemovedBlocks} (lookups : Lookups chain first state)
    (wf : chain.Wf) {block : RpcHash}
    (high : ∀ score, chain.blockhashToScore.get block = some score → first ≤ score) :
    Lookups chain first (removeBlock state block) ∧
      ∀ score, chain.blockhashToScore.get block = some score →
        (removeBlock state block).foundRemovedBlock = true ∧
          (removeBlock state block).minBlueScore ≤ score := by
  unfold removeBlock
  cases found : state.chain.lookupRemovedBlockScore block with
  | none =>
      refine ⟨lookups, fun score stored => ?_⟩
      refine (lookups.counted stored).resolve_left fun indexed => ?_
      rw [lookupRemovedBlockScore, indexed] at found
      cases found
  | some score =>
      have stored := lookups.lookup wf found
      refine ⟨⟨?_, ?_, ?_, lookups.blocks⟩, ?_⟩
      · intro hash score' kept
        simp only [Partition.get_erase] at kept
        split at kept
        · cases kept
        · exact lookups.kept kept
      · intro hash score' indexed
        simp only [Partition.get_erase]
        by_cases same : block = hash
        · subst same
          rw [stored, Option.some_inj] at indexed
          subst indexed
          exact .inr ⟨trivial, min_le_right _ _⟩
        · rw [if_neg same]
          refine (lookups.counted indexed).imp id fun counted => ⟨trivial, ?_⟩
          exact (min_le_left _ _).trans counted.2
      · exact le_min lookups.above (high score stored)
      · intro score' indexed
        rw [stored, Option.some_inj] at indexed
        subst indexed
        exact ⟨rfl, min_le_right _ _⟩

theorem Lookups.run {first : ℕ} {state : RemovedBlocks} (lookups : Lookups chain first state)
    (wf : chain.Wf)
    (high : ∀ block ∈ removed, ∀ score, chain.blockhashToScore.get block = some score →
      first ≤ score) :
    Lookups chain first (removed.foldl removeBlock state) ∧
      (∀ score, state.foundRemovedBlock = true ∧ state.minBlueScore ≤ score →
        (removed.foldl removeBlock state).foundRemovedBlock = true ∧
          (removed.foldl removeBlock state).minBlueScore ≤ score) ∧
      ∀ block ∈ removed, ∀ score, chain.blockhashToScore.get block = some score →
        (removed.foldl removeBlock state).foundRemovedBlock = true ∧
          (removed.foldl removeBlock state).minBlueScore ≤ score := by
  induction removed generalizing state with
  | nil => exact ⟨lookups, fun _ seen => seen, fun _ member => (List.not_mem_nil member).elim⟩
  | cons block removed ih =>
      obtain ⟨next, seen⟩ := lookups.step wf (high block List.mem_cons_self)
      obtain ⟨final, keeps, rest⟩ := ih next
        fun later member => high later (List.mem_cons_of_mem _ member)
      refine ⟨final, fun score earlier => keeps score ?_, fun other member => ?_⟩
      · rw [removeBlock]
        split
        · exact earlier
        · exact ⟨rfl, (min_le_left _ _).trans earlier.2⟩
      · rcases List.mem_cons.1 member with rfl | later
        · exact fun score stored => keeps score (seen score stored)
        · exact rest other later

def below (chain : ChainStore) (first : ℕ) : ChainStore where
  chainBlockScores := chain.chainBlockScores.below BlueScoredChainBlockHash.rowScore first
  blockhashToScore := chain.blockhashToScore.below (fun _ score => score) first

/-- Cutting the blocks at a score that is not above the counted ones cuts the index with them. -/
theorem Lookups.cut {first minBlueScore : ℕ} {state : RemovedBlocks}
    (lookups : Lookups chain first state) (wf : chain.Wf)
    (le : minBlueScore ≤ state.minBlueScore) :
    state.chain.removeChainStateFromBlueScore minBlueScore = chain.below minBlueScore := by
  have index : ((state.chain.chainBlockScores.keysFrom ⟨minBlueScore, 0⟩).foldl
      (fun index block => index.erase block.blockHash) state.chain.blockhashToScore) =
      chain.blockhashToScore.below (fun _ score => score) minBlueScore := by
    rw [lookups.blocks]
    refine Partition.eq_below ?_ ?_ ?_
    · intro hash score stored low
      rw [Partition.get_foldl_erase, if_neg]
      · refine (lookups.counted stored).resolve_right fun counted => ?_
        have above := counted.2
        omega
      · rintro ⟨block, member, rfl⟩
        obtain ⟨present, reached⟩ := Partition.mem_keysFrom.1 member
        have above := BlueScoredChainBlockHash.start_le_iff.1 reached
        have indexed : chain.blockhashToScore.get block.blockHash = some block.blueScore :=
          wf.indexed.2 present
        rw [stored, Option.some_inj] at indexed
        omega
    · intro hash score stored above
      rw [Partition.get_foldl_erase, if_pos]
      exact ⟨⟨score, hash⟩, Partition.mem_keysFrom.2
        ⟨wf.indexed.1 stored, BlueScoredChainBlockHash.start_le_iff.2 above⟩, rfl⟩
    · intro hash absent
      rw [Partition.get_foldl_erase]
      split
      · rfl
      · rw [Option.eq_none_iff_forall_ne_some]
        intro score kept
        rw [lookups.kept kept] at absent
        cases absent
  rw [removeChainStateFromBlueScore_eq, index, lookups.blocks, below]

theorem Wf.identified (wf : chain.Wf) (removed : List RpcHash) (forced : Option ℕ)
    {minBlueScore : ℕ}
    (found : (chain.identifyReorgBlocksAndDelete removed forced).2 = some minBlueScore) :
    (chain.identifyReorgBlocksAndDelete removed forced).1 = chain.below minBlueScore := by
  have start : Lookups chain 0 ⟨chain, u64Max, false⟩ := ⟨id, .inl, Nat.zero_le _, rfl⟩
  obtain ⟨lookups, _⟩ := start.run wf fun _ _ _ _ => Nat.zero_le _
  unfold identifyReorgBlocksAndDelete at found ⊢
  generalize removed.foldl removeBlock ⟨chain, u64Max, false⟩ = state at *
  cases forced with
  | none =>
      simp only at found ⊢
      split at found
      · rename_i known
        cases found
        rw [if_pos known]
        exact lookups.cut wf le_rfl
      · cases found
  | some score =>
      simp only [if_true, Option.some.injEq] at found ⊢
      subst found
      exact lookups.cut wf (min_le_left _ _)

theorem Wf.below (wf : chain.Wf) (first : ℕ) : (chain.below first).Wf := by
  refine ⟨fun {hash score} => ?_⟩
  simp only [ChainStore.below]
  rw [Partition.get_below_eq_some_iff, wf.indexed, Partition.isSome_get_below score fun _ => rfl]

/-- Removing blocks from a blue score on, among them the first one, cuts both partitions. -/
theorem Wf.identifyReorgBlocksAndDelete (wf : chain.Wf) {first : ℕ} (le : first ≤ u64Max)
    (high : ∀ block ∈ removed, ∀ score, chain.blockhashToScore.get block = some score →
      first ≤ score)
    (forcedHigh : ∀ score, forced = some score → first ≤ score)
    (reaches : (∃ block ∈ removed, chain.blockhashToScore.get block = some first) ∨
      forced = some first) :
    chain.identifyReorgBlocksAndDelete removed forced = (chain.below first, some first) := by
  have start : Lookups chain first ⟨chain, u64Max, false⟩ :=
    ⟨id, .inl, le, rfl⟩
  obtain ⟨lookups, _, seen⟩ := start.run wf high
  suffices minimum : (chain.identifyReorgBlocksAndDelete removed forced).2 = some first from
    Prod.ext (wf.identified removed forced minimum) minimum
  unfold ChainStore.identifyReorgBlocksAndDelete
  generalize removed.foldl removeBlock ⟨chain, u64Max, false⟩ = state at *
  have above := lookups.above
  cases forced with
  | none =>
      obtain ⟨block, member, stored⟩ := reaches.resolve_right (by simp)
      obtain ⟨found, low⟩ := seen block member first stored
      have minimum : state.minBlueScore = first := by omega
      simp only [found, if_true, minimum]
  | some score =>
      have scoreHigh := forcedHigh score rfl
      have minimum : min state.minBlueScore score = first := by
        rcases reaches with ⟨block, member, stored⟩ | same
        · obtain ⟨_, low⟩ := seen block member first stored
          omega
        · cases same
          omega
      simp only [if_true, minimum]

/-! Accepting a chain block. -/

variable {mergeset : Mergeset} {threshold : ℕ}

theorem Wf.accept (wf : chain.Wf)
    (newHash : chain.blockhashToScore.get mergeset.acceptedChainBlockHash = none) :
    (chain.accept mergeset).Wf := by
  refine ⟨fun {hash score} => ?_⟩
  have indexed := @wf.indexed hash score
  have unstored : ∀ score', ¬ (chain.chainBlockScores.get
      ⟨score', mergeset.acceptedChainBlockHash⟩).isSome := by
    intro score' present
    rw [wf.indexed.2 present] at newHash
    cases newHash
  simp only [ChainStore.accept, Partition.get_insert, BlueScoredChainBlockHash.mk.injEq]
  grind

/-- A block at or above a threshold does not show below it. -/
theorem accept_below (high : threshold ≤ mergeset.blueScore)
    (newHash : chain.blockhashToScore.get mergeset.acceptedChainBlockHash = none) :
    (chain.accept mergeset).below threshold = chain.below threshold :=
  ChainStore.ext (Partition.below_insert_of_key _ fun _ => high)
    (Partition.below_insert high newHash)

/-- Nothing is cut off a chain that ends below the threshold. -/
theorem Wf.below_eq_self (wf : chain.Wf)
    (under : chain.chainBlockScores.Under BlueScoredChainBlockHash.rowScore threshold) :
    chain.below threshold = chain := by
  refine ChainStore.ext (Partition.below_eq_self under) (Partition.below_eq_self ?_)
  intro hash score stored
  obtain ⟨row, found⟩ := Option.isSome_iff_exists.1 (wf.indexed.1 stored)
  exact under _ _ found

end ChainStore

end Krc721
