import Krc721.Processor.ChainFrame

/-! Selected chains of the node, its answers to `get_historical_data`, and what an answer does to
the stored blocks. Every block has one selected chain that leads to it, so two chains agree up to
the last block they share. -/

set_option autoImplicit false

namespace Krc721

/-- The blocks of the node. The path of a block is the selected chain that ends with it. -/
structure BlockTree where
  path : RpcHash → List BlueScoredChainBlockHash
  ends : ∀ hash, ∃ block, (path hash).getLast? = some block ∧ block.blockHash = hash
  inherits : ∀ {hash block}, block ∈ path hash →
    (path block.blockHash).getLast? = some block ∧ path block.blockHash <+: path hash
  grows : ∀ hash, (path hash).Pairwise fun lower upper => lower.blueScore < upper.blueScore
  bounded : ∀ {hash block}, block ∈ path hash → block.blueScore ≤ u64Max

namespace BlockTree

variable {tree : BlockTree} {hash tip source : RpcHash}
variable {block other last start : BlueScoredChainBlockHash}

/-- A block of the tree, with its own blue score. -/
def IsBlock (tree : BlockTree) (block : BlueScoredChainBlockHash) : Prop :=
  (tree.path block.blockHash).getLast? = some block

def scoreOf (tree : BlockTree) (hash : RpcHash) : ℕ :=
  ((tree.path hash).getLast?.map (·.blueScore)).getD 0

theorem isBlock_of_mem (member : block ∈ tree.path hash) : tree.IsBlock block :=
  (tree.inherits member).1

theorem IsBlock.mem (isBlock : tree.IsBlock block) : block ∈ tree.path block.blockHash :=
  List.mem_of_getLast? isBlock

theorem isBlock_iff : tree.IsBlock block ↔ tree.scoreOf block.blockHash = block.blueScore := by
  obtain ⟨last, ends, same⟩ := tree.ends block.blockHash
  rw [IsBlock, scoreOf, ends, Option.map_some, Option.getD_some, Option.some.injEq]
  constructor
  · rintro rfl
    rfl
  · intro sameScore
    obtain ⟨score, hash⟩ := last
    obtain ⟨score', hash'⟩ := block
    cases same
    cases sameScore
    rfl

/-- The front of an increasing list holds the smaller scores. -/
theorem lt_of_split {front rest : List BlueScoredChainBlockHash}
    (grows : (front ++ rest).Pairwise fun lower upper => lower.blueScore < upper.blueScore)
    (early : block ∈ front) (late : other ∈ rest) : block.blueScore < other.blueScore :=
  (List.pairwise_append.1 grows).2.2 block early other late

theorem le_of_mem (isBlock : tree.IsBlock last) (member : block ∈ tree.path last.blockHash) :
    block.blueScore ≤ last.blueScore := by
  obtain ⟨front, split⟩ := List.getLast?_eq_some_iff.1 isBlock
  have grows := tree.grows last.blockHash
  rw [split] at grows member
  rcases List.mem_append.1 member with early | late
  · exact le_of_lt (lt_of_split grows early (List.mem_singleton_self last))
  · rw [List.mem_singleton.1 late]

/-- The path of a block on a chain is the chain up to that block. -/
theorem mem_path_iff (onChain : last ∈ tree.path hash) :
    block ∈ tree.path last.blockHash ↔
      block ∈ tree.path hash ∧ block.blueScore ≤ last.blueScore := by
  obtain ⟨isBlock, rest, split⟩ := tree.inherits onChain
  constructor
  · intro member
    exact ⟨by rw [← split]; exact List.mem_append_left _ member, le_of_mem isBlock member⟩
  · rintro ⟨member, le⟩
    have grows := tree.grows hash
    rw [← split] at grows member
    refine (List.mem_append.1 member).resolve_right fun late => ?_
    have greater := lt_of_split grows (IsBlock.mem isBlock) late
    omega

theorem eq_of_score (member : block ∈ tree.path hash) (member' : other ∈ tree.path hash)
    (same : block.blueScore = other.blueScore) : block = other := by
  have first := (mem_path_iff member').2 ⟨member, same.le⟩
  obtain ⟨front, split⟩ := List.getLast?_eq_some_iff.1 (isBlock_of_mem member')
  have grows := tree.grows other.blockHash
  rw [split] at grows first
  rcases List.mem_append.1 first with early | late
  · have less := lt_of_split grows early (List.mem_singleton_self other)
    omega
  · exact List.mem_singleton.1 late

/-- The answer to `get_historical_data`: the blocks from `source` down to the chain, and the blocks
of the chain from there on, or the first of them. -/
def Answers (tree : BlockTree) (tip source : RpcHash) (removed : List RpcHash)
    (added : List BlueScoredChainBlockHash) : Prop :=
  ∃ common gone more, tree.path source = common ++ gone ∧
    tree.path tip = common ++ (added ++ more) ∧ (∀ block ∈ gone, block ∉ tree.path tip) ∧
    removed = (gone.map (·.blockHash)).reverse

/-! What an answer does to the stored blocks. -/

/-- Above the start exactly the chain that leads to a block is stored. -/
def Follows (tree : BlockTree) (start last : BlueScoredChainBlockHash) (chain : ChainStore) :
    Prop :=
  ∀ block, start.blueScore < block.blueScore →
    (chain.Stores block ↔ block ∈ tree.path last.blockHash)

variable {chain : ChainStore} {removed : List RpcHash}
variable {added : List BlueScoredChainBlockHash}

/-- A chain that does not lead above the start has nothing stored above it. -/
theorem Follows.of_le (isBlock : tree.IsBlock last) (le : last.blueScore ≤ start.blueScore) :
    tree.Follows start last chain ↔
      ∀ block, start.blueScore < block.blueScore → ¬ chain.Stores block := by
  refine forall_congr' fun block => forall_congr' fun above => ?_
  have outside : block ∉ tree.path last.blockHash := by
    intro member
    have := le_of_mem isBlock member
    omega
  simp [outside]

/-- The blocks of both chains lie in front of the ones that are added. -/
theorem Answers.lt_of_added (answers : tree.Answers tip source removed added)
    (member : block ∈ tree.path source) (onTip : block ∈ tree.path tip)
    (later : other ∈ added) : block.blueScore < other.blueScore := by
  obtain ⟨common, gone, more, sourcePath, tipPath, apart, _⟩ := answers
  rw [sourcePath] at member
  have grows := tree.grows tip
  rw [tipPath] at grows
  rcases List.mem_append.1 member with early | late
  · exact lt_of_split grows early (List.mem_append_left _ later)
  · exact absurd onTip (apart block late)

theorem Answers.mem_tip (answers : tree.Answers tip source removed added)
    (member : block ∈ added) : block ∈ tree.path tip := by
  obtain ⟨common, gone, more, _, tipPath, _⟩ := answers
  rw [tipPath]
  exact List.mem_append_right _ (List.mem_append_left _ member)

/-- The chain up to the last added block is what both chains share and what is added. -/
theorem Answers.mem_iff (answers : tree.Answers tip source removed added)
    (isLast : added.getLast? = some last) :
    block ∈ tree.path tip ∧ block.blueScore ≤ last.blueScore ↔
      (block ∈ tree.path source ∧ block ∈ tree.path tip) ∨ block ∈ added := by
  have lastAdded := List.mem_of_getLast? isLast
  constructor
  · rintro ⟨onTip, le⟩
    obtain ⟨common, gone, more, sourcePath, tipPath, _⟩ := answers
    have grows := tree.grows tip
    rw [tipPath] at onTip grows
    rcases List.mem_append.1 onTip with early | late
    · left
      rw [sourcePath, tipPath]
      exact ⟨List.mem_append_left _ early, onTip⟩
    · refine .inr ((List.mem_append.1 late).resolve_right fun beyond => ?_)
      have := lt_of_split (List.pairwise_append.1 grows).2.1 lastAdded beyond
      omega
  · intro shared
    rcases shared with ⟨member, onTip⟩ | member
    · exact ⟨onTip, (answers.lt_of_added member onTip lastAdded).le⟩
    · refine ⟨answers.mem_tip member, ?_⟩
      obtain ⟨front, split⟩ := List.getLast?_eq_some_iff.1 isLast
      obtain ⟨common, gone, more, _, tipPath, _⟩ := answers
      have grows := tree.grows tip
      rw [tipPath, split] at grows
      rw [split] at member
      rcases List.mem_append.1 member with early | same
      · exact (lt_of_split (List.pairwise_append.1 (List.pairwise_append.1 grows).2.1).1 early
          (List.mem_singleton_self last)).le
      · rw [List.mem_singleton.1 same]

/-- Without a forced rollback, what both chains share is kept. -/
theorem stores_identified (answers : tree.Answers tip source removed added)
    {sourceBlock : BlueScoredChainBlockHash} (named : sourceBlock.blockHash = source)
    (scored : chain.Scored tree.scoreOf) (follows : tree.Follows start sourceBlock chain)
    (startOn : start ∈ tree.path source) (startOnTip : start ∈ tree.path tip)
    (above : start.blueScore < block.blueScore) :
    (chain.identifyReorgBlocksAndDelete removed none).1.Stores block ↔
      block ∈ tree.path source ∧ block ∈ tree.path tip := by
  subst named
  obtain ⟨common, gone, more, sourcePath, tipPath, apart, rfl⟩ := answers
  have grows := tree.grows sourceBlock.blockHash
  rw [sourcePath] at grows
  have shared : start ∈ common := by
    rw [sourcePath] at startOn
    exact (List.mem_append.1 startOn).resolve_right fun late => apart start late startOnTip
  cases gone with
  | nil =>
      refine (follows block above).trans ?_
      rw [sourcePath, tipPath]
      simp only [List.append_nil, List.mem_append]
      tauto
  | cons first gone =>
      have low : start.blueScore < first.blueScore :=
        lt_of_split grows shared List.mem_cons_self
      have onSource : ∀ other ∈ first :: gone, other ∈ tree.path sourceBlock.blockHash := by
        intro other member
        rw [sourcePath]
        exact List.mem_append_right _ member
      have least : ∀ other ∈ first :: gone, first.blueScore ≤ other.blueScore := by
        intro other member
        rcases List.mem_cons.1 member with rfl | later
        · exact le_rfl
        · exact (List.rel_of_pairwise_cons (List.pairwise_append.1 grows).2.1 later).le
      have isStored := (follows first low).2 (onSource first List.mem_cons_self)
      have cut := @ChainStore.Wf.identifyReorgBlocksAndDelete chain
        ((first :: gone).map (·.blockHash)).reverse none scored.toWf first.blueScore
        (tree.bounded (onSource first List.mem_cons_self)) ?_ nofun
        (.inl ⟨first.blockHash, by simp, scored.toWf.indexed.2 isStored⟩)
      · rw [cut, ChainStore.stores_below, follows block above]
        refine and_congr_right fun member => ?_
        rw [sourcePath] at member
        constructor
        · intro below
          rw [tipPath]
          refine List.mem_append_left _ ((List.mem_append.1 member).resolve_right fun late => ?_)
          have := least block late
          omega
        · intro onTip
          have early := (List.mem_append.1 member).resolve_right fun late =>
            apart block late onTip
          exact lt_of_split grows early List.mem_cons_self
      · intro hash member score found
        obtain ⟨other, isGone, rfl⟩ := List.mem_map.1 (List.mem_reverse.1 member)
        rw [← scored.scored found, isBlock_iff.1 (isBlock_of_mem (onSource other isGone))]
        exact least other isGone

/-- A forced rollback of a block on the chain keeps what is in front of it. -/
theorem stores_identified_forced {sourceBlock : BlueScoredChainBlockHash}
    (isBlock : tree.IsBlock sourceBlock) (scored : chain.Scored tree.scoreOf)
    (follows : tree.Follows start sourceBlock chain) (above : start.blueScore < block.blueScore) :
    (chain.identifyReorgBlocksAndDelete [sourceBlock.blockHash]
      (some sourceBlock.blueScore)).1.Stores block ↔
        block ∈ tree.path sourceBlock.blockHash ∧ block.blueScore < sourceBlock.blueScore := by
  have cut := @ChainStore.Wf.identifyReorgBlocksAndDelete chain [sourceBlock.blockHash]
    (some sourceBlock.blueScore) scored.toWf sourceBlock.blueScore (tree.bounded isBlock.mem) ?_
    (fun score same => (Option.some.inj same).le) (.inr rfl)
  · rw [cut, ChainStore.stores_below, follows block above]
  · intro hash member score found
    rw [List.mem_singleton.1 member] at found
    rw [← scored.scored found, isBlock_iff.1 isBlock]

/-- The mergesets of an answer are not behind the tip that a removal leaves. -/
theorem stores_addBlocks_of_answers {mergesets : List Mergeset}
    (answers : tree.Answers tip source removed (mergesets.map Mergeset.block))
    (kept : ∀ block, start.blueScore < block.blueScore →
      (chain.Stores block ↔ block ∈ tree.path source ∧ block ∈ tree.path tip))
    (above : start.blueScore < block.blueScore) :
    (chain.addBlocks ((chain.lastAcceptedBlock.map (·.blueScore)).getD 0) mergesets).Stores block ↔
      (block ∈ tree.path source ∧ block ∈ tree.path tip) ∨
        block ∈ mergesets.map Mergeset.block := by
  rw [ChainStore.stores_addBlocks, kept block above]
  refine or_congr_right ⟨?_, ?_⟩
  · rintro ⟨mergeset, member, _, rfl⟩
    exact List.mem_map_of_mem member
  · intro isAdded
    obtain ⟨mergeset, member, rfl⟩ := List.mem_map.1 isAdded
    refine ⟨mergeset, member, ?_, rfl⟩
    cases tipBlock : chain.lastAcceptedBlock with
    | none => exact Nat.zero_le _
    | some last =>
        obtain ⟨stored, _⟩ := ChainStore.lastAcceptedBlock_spec tipBlock
        simp only [Option.map_some, Option.getD_some]
        by_cases low : last.blueScore ≤ start.blueScore
        · exact (low.trans_lt above).le
        · obtain ⟨onSource, onTip⟩ := (kept last (Nat.lt_of_not_le low)).1 stored
          exact (answers.lt_of_added onSource onTip isAdded).le

/-- Above the start the stored blocks are a part of a selected chain, up to a last block. -/
structure Reaches (tree : BlockTree) (start : BlueScoredChainBlockHash) (tip : RpcHash)
    (last : BlueScoredChainBlockHash) (chain : ChainStore) : Prop where
  isBlock : tree.IsBlock last
  onTip : start.blueScore < last.blueScore → last ∈ tree.path tip
  follows : tree.Follows start last chain

variable {sourceBlock next : BlueScoredChainBlockHash}

/-- A last block that is not above the start goes with nothing stored above it. -/
theorem Reaches.of_le (isBlock : tree.IsBlock last) (le : last.blueScore ≤ start.blueScore)
    (nothing : ∀ block, start.blueScore < block.blueScore → ¬ chain.Stores block) :
    tree.Reaches start tip last chain where
  isBlock := isBlock
  onTip above := absurd above (Nat.not_lt.2 le)
  follows := (Follows.of_le isBlock le).2 nothing

theorem isBlock_of_lastAcceptedBlock (scored : chain.Scored tree.scoreOf)
    (accepted : chain.lastAcceptedBlock = some last) : tree.IsBlock last :=
  isBlock_iff.2 (scored.scoreOf_of_stores (ChainStore.lastAcceptedBlock_spec accepted).1)

/-- After an answer that adds blocks, whether its last block was resolved or not. -/
theorem reaches_of_added (answers : tree.Answers tip sourceBlock.blockHash removed added)
    (isLast : added.getLast? = some last) (scored : chain.Scored tree.scoreOf)
    (isSource : tree.IsBlock sourceBlock)
    (startOn : start.blueScore < sourceBlock.blueScore →
      start ∈ tree.path sourceBlock.blockHash) (startOnTip : start ∈ tree.path tip)
    (stores : ∀ block, start.blueScore < block.blueScore → (chain.Stores block ↔
      (block ∈ tree.path sourceBlock.blockHash ∧ block ∈ tree.path tip) ∨ block ∈ added))
    (isNext : next = last ∨ next = chain.lastAcceptedBlock.getD sourceBlock) :
    tree.Reaches start tip next chain := by
  have lastAdded := List.mem_of_getLast? isLast
  have lastOnTip := answers.mem_tip lastAdded
  have upTo : ∀ block, start.blueScore < block.blueScore → (chain.Stores block ↔
      block ∈ tree.path tip ∧ block.blueScore ≤ last.blueScore) := fun block above =>
    (stores block above).trans (answers.mem_iff isLast).symm
  by_cases above : start.blueScore < last.blueScore
  · have accepted : chain.lastAcceptedBlock = some last := by
      refine ChainStore.lastAcceptedBlock_of_greatest
        ((upTo last above).2 ⟨lastOnTip, le_rfl⟩) fun other isStored different => ?_
      by_cases low : start.blueScore < other.blueScore
      · obtain ⟨onTip, le⟩ := (upTo other low).1 isStored
        exact lt_of_le_of_ne le fun same => different (eq_of_score onTip lastOnTip same)
      · omega
    rw [accepted, Option.getD_some, or_self] at isNext
    subst isNext
    refine ⟨isBlock_of_mem lastOnTip, fun _ => lastOnTip, fun block high => ?_⟩
    rw [upTo block high, mem_path_iff lastOnTip]
  · have nothing : ∀ block, start.blueScore < block.blueScore → ¬ chain.Stores block := by
      intro block high isStored
      have := ((upTo block high).1 isStored).2
      omega
    rcases isNext with rfl | rfl
    · exact .of_le (isBlock_of_mem lastOnTip) (Nat.le_of_not_lt above) nothing
    · cases accepted : chain.lastAcceptedBlock with
      | none =>
          refine .of_le isSource (Nat.le_of_not_lt fun high => ?_) nothing
          exact above (answers.lt_of_added (startOn high) startOnTip lastAdded)
      | some block =>
          refine .of_le (isBlock_of_lastAcceptedBlock scored accepted)
            (Nat.le_of_not_lt fun high => ?_) nothing
          exact nothing block high (ChainStore.lastAcceptedBlock_spec accepted).1

/-- After an answer that adds nothing, if a block is left. -/
theorem reaches_of_kept (scored : chain.Scored tree.scoreOf)
    (accepted : chain.lastAcceptedBlock = some next)
    (onBoth : ∀ block, start.blueScore < block.blueScore → chain.Stores block →
      block ∈ tree.path source ∧ block ∈ tree.path tip)
    (closed : ∀ block other, start.blueScore < block.blueScore →
      block.blueScore ≤ other.blueScore → block ∈ tree.path source → chain.Stores other →
      chain.Stores block) : tree.Reaches start tip next chain := by
  obtain ⟨isStored, greatest⟩ := ChainStore.lastAcceptedBlock_spec accepted
  have isBlock := isBlock_of_lastAcceptedBlock scored accepted
  by_cases above : start.blueScore < next.blueScore
  · obtain ⟨onSource, onTip⟩ := onBoth next above isStored
    refine ⟨isBlock, fun _ => onTip, fun block high => ?_⟩
    rw [mem_path_iff onSource]
    constructor
    · intro stored
      exact ⟨(onBoth block high stored).1, greatest block stored⟩
    · rintro ⟨member, le⟩
      exact closed block next high le member isStored
  · refine .of_le isBlock (Nat.le_of_not_lt above) fun block high stored => ?_
    have := greatest block stored
    omega

theorem scoreOf_le (hash : RpcHash) : tree.scoreOf hash ≤ u64Max := by
  obtain ⟨block, ends, _⟩ := tree.ends hash
  rw [scoreOf, ends, Option.map_some, Option.getD_some]
  exact tree.bounded (List.mem_of_getLast? ends)

/-- An answer removes nothing if the block it starts from is on the chain. -/
theorem Answers.removed_eq_nil (answers : tree.Answers tip sourceBlock.blockHash removed added)
    (onTip : sourceBlock ∈ tree.path tip) : removed = [] := by
  obtain ⟨common, gone, more, sourcePath, tipPath, apart, rfl⟩ := answers
  cases gone using List.reverseRecOn with
  | nil => rfl
  | append_singleton gone last =>
      have isLast := isBlock_of_mem onTip
      rw [IsBlock, sourcePath, ← List.append_assoc, List.getLast?_concat] at isLast
      cases isLast
      exact absurd onTip (apart _ (by simp))

/-- A block that an answer does not remove is on the chain, and nothing is removed. -/
theorem Answers.onTip (answers : tree.Answers tip sourceBlock.blockHash removed added)
    (isSource : tree.IsBlock sourceBlock) (unremoved : sourceBlock.blockHash ∉ removed) :
    removed = [] ∧ ∀ block ∈ tree.path sourceBlock.blockHash, block ∈ tree.path tip := by
  obtain ⟨common, gone, more, sourcePath, tipPath, apart, rfl⟩ := answers
  cases gone using List.reverseRecOn with
  | nil =>
      refine ⟨rfl, fun block member => ?_⟩
      rw [sourcePath, List.append_nil] at member
      rw [tipPath]
      exact List.mem_append_left _ member
  | append_singleton gone last =>
      have isLast := isSource
      rw [IsBlock, sourcePath, ← List.append_assoc, List.getLast?_concat] at isLast
      cases isLast
      exact absurd (by simp) unremoved

end BlockTree

end Krc721
