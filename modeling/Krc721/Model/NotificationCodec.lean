import Krc721.Codec.Borsh
import Krc721.Model.Operation

/-! The derived encodings of a notification, as the queue of the database stores it. -/

set_option autoImplicit false

namespace Krc721

open Borsh

def u64Codec : Codec ℕ := nat 8

def hashCodec : Codec Hash := natBe 32

def tickCodec : Codec Tick :=
  refine (raw TICK_LENGTH) (fun tick => some tick.bytes)
    (fun bytes =>
      if valid : bytes.length = TICK_LENGTH ∧ 48 ≤ bytes.headD 0 then
        some ⟨bytes, valid.1, valid.2⟩
      else none)
    (by
      rintro ⟨bytes, length_eq, head_le⟩ _ ⟨⟩
      exact dif_pos ⟨length_eq, head_le⟩)

def scriptPublicKeyCodec : Codec ScriptPublicKey :=
  struct (pair (nat 2) numbers) (fun spk => (spk.version, spk.script))
    (fun fields => ⟨fields.1, fields.2⟩) fun _ => rfl

def attributeCodec : Codec Attribute :=
  struct (pair string (pair string (option string)))
    (fun entry => (entry.traitType, entry.value, entry.displayType))
    (fun fields => ⟨fields.1, fields.2.1, fields.2.2⟩) fun _ => rfl

def localMetadataCodec : Codec LocalMetadata :=
  struct (pair string (pair string (pair string (option (vec attributeCodec)))))
    (fun metadata => (metadata.name, metadata.description, metadata.image, metadata.attributes))
    (fun fields => ⟨fields.1, fields.2.1, fields.2.2.1, fields.2.2.2⟩) fun _ => rfl

def metadataCodec : Codec Metadata :=
  enum [
    { Payload := String
      codec := string
      project := fun
        | .remote buri => some buri
        | _ => none
      inject := .remote
      inject_project := by rintro ⟨⟩ _ ⟨⟩; rfl },
    { Payload := LocalMetadata
      codec := localMetadataCodec
      project := fun
        | .localData metadata => some metadata
        | _ => none
      inject := .localData
      inject_project := by rintro ⟨⟩ _ ⟨⟩; rfl }] (by decide)

def royaltyDetailsCodec : Codec RoyaltyDetails :=
  struct (pair scriptPublicKeyCodec u64Codec) (fun royalty => (royalty.beneficiary, royalty.fee))
    (fun fields => ⟨fields.1, fields.2⟩) fun _ => rfl

def deployInfoCodec : Codec DeployInfo :=
  struct (pair metadataCodec (pair u64Codec (pair scriptPublicKeyCodec
      (pair (option royaltyDetailsCodec) (pair u64Codec u64Codec)))))
    (fun info =>
      (info.metadata, info.max, info.deployer, info.royalty, info.mintStartDaa, info.premint))
    (fun fields => ⟨fields.1, fields.2.1, fields.2.2.1, fields.2.2.2.1, fields.2.2.2.2.1,
      fields.2.2.2.2.2⟩) fun _ => rfl

def mintInfoCodec : Codec MintInfo :=
  struct (pair u64Codec (pair scriptPublicKeyCodec (option royaltyDetailsCodec)))
    (fun info => (info.tokenId, info.toSpk, info.royalty))
    (fun fields => ⟨fields.1, fields.2.1, fields.2.2⟩) fun _ => rfl

def transferInfoCodec : Codec TransferInfo :=
  struct (pair u64Codec scriptPublicKeyCodec) (fun info => (info.tokenId, info.toSpk))
    (fun fields => ⟨fields.1, fields.2⟩) fun _ => rfl

def discountInfoCodec : Codec DiscountInfo :=
  struct (pair scriptPublicKeyCodec u64Codec) (fun info => (info.toSpk, info.fee))
    (fun fields => ⟨fields.1, fields.2⟩) fun _ => rfl

def listingInfoCodec : Codec ListingInfo :=
  struct (pair u64Codec (pair scriptPublicKeyCodec numbers))
    (fun info => (info.tokenId, info.utxoAddress, info.redeemScript))
    (fun fields => ⟨fields.1, fields.2.1, fields.2.2⟩) fun _ => rfl

def sendInfoCodec : Codec SendInfo :=
  struct (pair u64Codec (pair u64Codec (pair (option scriptPublicKeyCodec) hashCodec)))
    (fun info => (info.tokenId, info.paymentAmount, info.buyer, info.listingUtxoTxid))
    (fun fields => ⟨fields.1, fields.2.1, fields.2.2.1, fields.2.2.2⟩) fun _ => rfl

def operationCommonCodec : Codec OperationCommon :=
  struct (pair tickCodec (pair hashCodec (pair u64Codec (pair scriptPublicKeyCodec
      (pair u64Codec u64Codec)))))
    (fun common => (common.tick, common.txId, common.blockTime, common.sender, common.fee,
      common.acceptingBlockDaaScore))
    (fun fields => ⟨fields.1, fields.2.1, fields.2.2.1, fields.2.2.2.1, fields.2.2.2.2.1,
      fields.2.2.2.2.2⟩) fun _ => rfl

def operationInfoCodec : Codec OperationInfo :=
  enum [
    { Payload := DeployInfo
      codec := deployInfoCodec
      project := fun
        | .deploy info => some info
        | _ => none
      inject := .deploy
      inject_project := by rintro ⟨⟩ _ ⟨⟩; rfl },
    { Payload := MintInfo
      codec := mintInfoCodec
      project := fun
        | .mint info => some info
        | _ => none
      inject := .mint
      inject_project := by rintro ⟨⟩ _ ⟨⟩; rfl },
    { Payload := TransferInfo
      codec := transferInfoCodec
      project := fun
        | .transfer info => some info
        | _ => none
      inject := .transfer
      inject_project := by rintro ⟨⟩ _ ⟨⟩; rfl },
    { Payload := DiscountInfo
      codec := discountInfoCodec
      project := fun
        | .discount info => some info
        | _ => none
      inject := .discount
      inject_project := by rintro ⟨⟩ _ ⟨⟩; rfl },
    { Payload := ListingInfo
      codec := listingInfoCodec
      project := fun
        | .list info => some info
        | _ => none
      inject := .list
      inject_project := by rintro ⟨⟩ _ ⟨⟩; rfl },
    { Payload := SendInfo
      codec := sendInfoCodec
      project := fun
        | .send info => some info
        | _ => none
      inject := .send
      inject_project := by rintro ⟨⟩ _ ⟨⟩; rfl }] (by decide)

def operationCodec : Codec Operation :=
  struct (pair operationCommonCodec operationInfoCodec)
    (fun operation => (operation.common, operation.info)) (fun fields => ⟨fields.1, fields.2⟩)
    fun _ => rfl

/-- An index is written as a `u64`. -/
def mergesetOperationCodec : Codec MergesetOperation :=
  struct (pair u64Codec (pair u64Codec operationCodec))
    (fun operation => (operation.blockIndexWithinMergeset, operation.indexWithinMergedBlock,
      operation.operation))
    (fun fields => ⟨fields.1, fields.2.1, fields.2.2⟩) fun _ => rfl

def mergesetCodec : Codec Mergeset :=
  struct (pair (vec mergesetOperationCodec) (pair u64Codec (pair u64Codec hashCodec)))
    (fun mergeset => (mergeset.operations, mergeset.entropy, mergeset.blueScore,
      mergeset.acceptedChainBlockHash))
    (fun fields => ⟨fields.1, fields.2.1, fields.2.2.1, fields.2.2.2⟩) fun _ => rfl

def virtualChainChangesCodec : Codec VirtualChainChanges :=
  struct (pair (vec hashCodec) (pair (option u64Codec) (vec mergesetCodec)))
    (fun vcc => (vcc.removedChainBlockHashes, vcc.forcedRollbackBlueScore, vcc.mergesets))
    (fun fields => ⟨fields.1, fields.2.1, fields.2.2⟩) fun _ => rfl

example : virtualChainChangesCodec.write ⟨[], some 258, []⟩ =
    some [0, 0, 0, 0, 1, 2, 1, 0, 0, 0, 0, 0, 0, 0, 0, 0, 0] := by decide +kernel

end Krc721
