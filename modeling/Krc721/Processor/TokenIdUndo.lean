import Krc721.Processor.TokenIdProperties

/-! Sequences of mints and their undoing. From a list that earlier mints left behind, any
further mints the supply allows succeed, and rolling their ids back newest first returns the
very store they began with: the same ranges at the same indices, the same length row or its
absence, and the same rollback metadata. -/

set_option autoImplicit false

namespace Krc721

open OrderedStore

namespace RangeStore

/-- One `generate_token_id` for each entropy, in order. -/
def generateTokenIds (store : RangeStore) (tick : Tick) (maxSupply premint : ℕ) :
    List ℕ → Except Fault (RangeStore × List ℕ)
  | [] => .ok (store, [])
  | mergesetEntropy :: entropies =>
      match store.generateTokenId tick mergesetEntropy maxSupply premint with
      | .error fault => .error fault
      | .ok (store, tokenId) =>
          match store.generateTokenIds tick maxSupply premint entropies with
          | .error fault => .error fault
          | .ok (store, tokenIds) => .ok (store, tokenId :: tokenIds)

/-- One `rollback_token_generation` for each id, in order. -/
def rollbackTokenGenerations (store : RangeStore) (tick : Tick) (tokenIds : List ℕ) :
    Except Fault RangeStore :=
  tokenIds.foldlM (fun store tokenId => store.rollbackTokenGeneration tick tokenId) store

/-- The range rows of a tick that `count` mints from an absent list have left behind. -/
inductive Produced (tick : Tick) (maxSupply premint : ℕ) : RangeStore → ℕ → Prop where
  | absent {store : RangeStore} (vacant : store.Vacant tick)
      (unminted : ∀ tokenId, premint < tokenId → tokenId ≤ maxSupply →
        store.tokenIdMeta.get ⟨tick, tokenId⟩ = none) :
      Produced tick maxSupply premint store 0
  | generated {store taken : RangeStore} {count mergesetEntropy tokenId : ℕ}
      (earlier : Produced tick maxSupply premint store count)
      (success : store.generateTokenId tick mergesetEntropy maxSupply premint =
        .ok (taken, tokenId)) :
      Produced tick maxSupply premint taken (count + 1)

/-- The next mint of a tick draws from a pool of `remaining` ids, none of which has metadata
of an earlier mint. -/
structure Undrawn (store : RangeStore) (tick : Tick) (maxSupply premint : ℕ)
    (pool : Option IntervalPool) (remaining : ℕ) : Prop where
  represents : store.Represents tick pool
  separated : (drawPool maxSupply premint pool).Separated
  total : (drawPool maxSupply premint pool).total = remaining
  within : ∀ {tokenId}, (drawPool maxSupply premint pool).Covers tokenId →
    premint < tokenId ∧ tokenId ≤ maxSupply
  fresh : ∀ {tokenId}, (drawPool maxSupply premint pool).Covers tokenId →
    store.tokenIdMeta.get ⟨tick, tokenId⟩ = none

variable {store taken : RangeStore} {tick : Tick} {maxSupply premint count remaining : ℕ}
variable {pool : Option IntervalPool}

/-- Before the first mint of a tick every id above the preminted ones is free. -/
theorem covers_drawPool_none {tokenId : ℕ} :
    (drawPool maxSupply premint none).Covers tokenId ↔
      1 + premint ≤ tokenId ∧ tokenId < 1 + premint + (maxSupply - premint) := by
  simp only [drawPool, Option.getD_none, IntervalPool.covers_cons, IntervalPool.covers_nil,
    or_false]

theorem Undrawn.absent (vacant : store.Vacant tick)
    (unminted : ∀ tokenId, premint < tokenId → tokenId ≤ maxSupply →
      store.tokenIdMeta.get ⟨tick, tokenId⟩ = none)
    (less : premint < maxSupply) :
    store.Undrawn tick maxSupply premint none (maxSupply - premint) where
  represents := vacant
  separated := IntervalPool.separated_singleton (by omega)
  total := by simp [drawPool]
  within := by
    intro tokenId covered
    rw [covers_drawPool_none] at covered
    omega
  fresh := by
    intro tokenId covered
    rw [covers_drawPool_none] at covered
    exact unminted tokenId (by omega) (by omega)

/-- A mint succeeds while ids remain, its rollback returns the store it began with, and it
leaves one id less. -/
theorem Undrawn.generateTokenId
    (undrawn : store.Undrawn tick maxSupply premint pool (remaining + 1))
    (mergesetEntropy : ℕ) :
    ∃ taken tokenId rest,
      store.generateTokenId tick mergesetEntropy maxSupply premint = .ok (taken, tokenId) ∧
      taken.rollbackTokenGeneration tick tokenId = .ok store ∧
      taken.Undrawn tick maxSupply premint (some rest) remaining := by
  obtain ⟨represents, separated, total, within, fresh⟩ := undrawn
  have present : drawPool maxSupply premint pool ≠ [] := by
    intro empty
    rw [empty, IntervalPool.total_nil] at total
    omega
  have bounds : ∀ id, (drawPool maxSupply premint pool).Covers id →
      1 ≤ id ∧ id ≤ maxSupply := by
    intro id covered
    have limits := within covered
    omega
  obtain ⟨taken, index, start, size, offset, found, inside, success, outcome⟩ :=
    generateTokenId_taken represents separated present bounds mergesetEntropy
  have covered := IntervalPool.covers_of_getElem? found inside
  refine ⟨taken, start + offset, _, success,
    rollbackTokenGeneration_taken represents found (fresh covered) outcome,
    outcome.holds, separated.takeAt found inside, ?_, ?_, ?_⟩
  · have less := IntervalPool.total_takeAt found inside
    simp only [drawPool, Option.getD_some] at less total ⊢
    omega
  · intro id left
    exact within ((separated.covers_takeAt found inside).1 left).1
  · intro id left
    obtain ⟨before, different⟩ := (separated.covers_takeAt found inside).1 left
    rw [outcome.tokenIdMeta, Partition.get_insert_of_ne]
    · exact fresh before
    · intro same
      injection same with _ sameId
      exact different sameId.symm

/-- What the earlier mints have left is what the supply still allows. -/
theorem Produced.undrawn (produced : Produced tick maxSupply premint store count)
    (less : premint < maxSupply) (room : count ≤ maxSupply - premint) :
    ∃ pool, store.Undrawn tick maxSupply premint pool (maxSupply - premint - count) := by
  induction produced with
  | absent vacant unminted => exact ⟨none, .absent vacant unminted less⟩
  | @generated store taken count mergesetEntropy tokenId earlier success ih =>
      obtain ⟨pool, undrawn⟩ := ih (by omega)
      have one : maxSupply - premint - count = maxSupply - premint - (count + 1) + 1 := by
        omega
      rw [one] at undrawn
      obtain ⟨taken', tokenId', rest, success', _, left⟩ :=
        undrawn.generateTokenId mergesetEntropy
      have same : (taken', tokenId') = (taken, tokenId) :=
        Except.ok.inj (success'.symm.trans success)
      injection same with sameStore
      exact ⟨some rest, sameStore ▸ left⟩

theorem rollbackTokenGenerations_concat {restored rest : RangeStore} {tokenIds : List ℕ}
    {tokenId : ℕ} (newer : taken.rollbackTokenGenerations tick tokenIds = .ok rest)
    (last : rest.rollbackTokenGeneration tick tokenId = .ok restored) :
    taken.rollbackTokenGenerations tick (tokenIds ++ [tokenId]) = .ok restored := by
  unfold rollbackTokenGenerations at newer ⊢
  rw [List.foldlM_append, newer]
  change (rest.rollbackTokenGeneration tick tokenId >>= pure) = _
  rw [bind_pure, last]

/-- A sequence of mints that the remaining ids allow is undone newest first. -/
theorem Undrawn.generateTokenIds {entropies : List ℕ}
    (undrawn : store.Undrawn tick maxSupply premint pool remaining)
    (room : entropies.length ≤ remaining) :
    ∃ taken tokenIds,
      store.generateTokenIds tick maxSupply premint entropies = .ok (taken, tokenIds) ∧
      tokenIds.length = entropies.length ∧
      taken.rollbackTokenGenerations tick tokenIds.reverse = .ok store := by
  induction entropies generalizing store pool remaining with
  | nil => exact ⟨store, [], rfl, rfl, rfl⟩
  | cons mergesetEntropy entropies ih =>
      rw [List.length_cons] at room
      obtain ⟨fewer, rfl⟩ : ∃ fewer, remaining = fewer + 1 := ⟨remaining - 1, by omega⟩
      obtain ⟨first, tokenId, rest, success, undone, left⟩ :=
        undrawn.generateTokenId mergesetEntropy
      obtain ⟨taken, tokenIds, successes, length, allUndone⟩ := ih left (by omega)
      refine ⟨taken, tokenId :: tokenIds, ?_, ?_, ?_⟩
      · simp only [RangeStore.generateTokenIds, success, successes]
      · rw [List.length_cons, List.length_cons, length]
      · rw [List.reverse_cons]
        exact rollbackTokenGenerations_concat allUndone undone

/-- Mints within the supply succeed, and rolling their ids back in reverse order restores
the ranges, the length row and the rollback metadata. -/
theorem rollback_generateTokenIds {entropies : List ℕ} (less : premint < maxSupply)
    (produced : Produced tick maxSupply premint store count)
    (room : count + entropies.length ≤ maxSupply - premint) :
    ∃ taken tokenIds,
      store.generateTokenIds tick maxSupply premint entropies = .ok (taken, tokenIds) ∧
      tokenIds.length = entropies.length ∧
      taken.rollbackTokenGenerations tick tokenIds.reverse = .ok store := by
  obtain ⟨pool, undrawn⟩ := produced.undrawn less (by omega)
  exact undrawn.generateTokenIds (by omega)

namespace MintSample

/-- Ids one and two of six are preminted; the first draw has split the range of the rest. -/
def split : RangeStore :=
  ({ rangeLengths := (∅ : Partition Tick ℕ).insert Tick.MIN 1 } : RangeStore).splitRange
    Tick.MIN 0 5 3 4 2 1 true

theorem produced : Produced Tick.MIN 6 2 split 1 := by
  have success : ({} : RangeStore).generateTokenId Tick.MIN 6 6 2 = .ok (split, 5) := by
    simp [generateTokenId, selectRange, takeValue, split]
  refine .generated (.absent ⟨?_, ?_⟩ ?_) success
  · exact Partition.get_empty _
  · exact fun _ => Partition.get_empty _
  · exact fun _ _ _ => Partition.get_empty _

end MintSample

theorem rollback_generateTokenIds_split :
    ∃ taken tokenIds,
      MintSample.split.generateTokenIds Tick.MIN 6 2 [3, 8, 10] = .ok (taken, tokenIds) ∧
      tokenIds.length = 3 ∧
      taken.rollbackTokenGenerations Tick.MIN tokenIds.reverse = .ok MintSample.split :=
  rollback_generateTokenIds (by decide) MintSample.produced (by decide)

end RangeStore

end Krc721
