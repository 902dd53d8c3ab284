import Krc721.Model.Keys

/-! Scripts: the opcodes the indexer names, and the three script public keys that an address
pays to. -/

set_option autoImplicit false

namespace Krc721

def OpFalse : ℕ := 0x00

def OpData32 : ℕ := 0x20

def OpData33 : ℕ := 0x21

def OpTrue : ℕ := 0x51

def OpIf : ℕ := 0x63

def OpEndIf : ℕ := 0x68

def OpEqual : ℕ := 0x87

def OpBlake2b : ℕ := 0xaa

def OpCheckSigECDSA : ℕ := 0xab

def OpCheckSig : ℕ := 0xac

def hexString (bytes : List ℕ) : String :=
  String.ofList (bytes.flatMap fun byte => [(byte / 16).digitChar, (byte % 16).digitChar])

namespace ScriptPublicKey

def ofPubKey (payload : List ℕ) : ScriptPublicKey :=
  ⟨0, OpData32 :: payload ++ [OpCheckSig]⟩

def ofPubKeyEcdsa (payload : List ℕ) : ScriptPublicKey :=
  ⟨0, OpData33 :: payload ++ [OpCheckSigECDSA]⟩

def ofScriptHash (hash : List ℕ) : ScriptPublicKey :=
  ⟨0, OpBlake2b :: OpData32 :: hash ++ [OpEqual]⟩

/-- The script public keys of the three address versions. -/
inductive IsAddress : ScriptPublicKey → Prop where
  | pubKey (payload : List ℕ) (length_eq : payload.length = 32) : IsAddress (ofPubKey payload)
  | pubKeyEcdsa (payload : List ℕ) (length_eq : payload.length = 33) :
      IsAddress (ofPubKeyEcdsa payload)
  | scriptHash (hash : List ℕ) (length_eq : hash.length = 32) : IsAddress (ofScriptHash hash)

/-- The first byte of an address script tells its length. -/
theorem IsAddress.length_eq {left right : ScriptPublicKey} (leftAddress : left.IsAddress)
    (rightAddress : right.IsAddress) (head : left.script.head? = right.script.head?) :
    left.script.length = right.script.length := by
  cases leftAddress with
  | pubKey payload length =>
      cases rightAddress with
      | pubKey payload' length' => simp [ofPubKey, length, length']
      | pubKeyEcdsa payload' length' =>
          simp [ofPubKey, ofPubKeyEcdsa, OpData32, OpData33] at head
      | scriptHash hash' length' =>
          simp [ofPubKey, ofScriptHash, OpData32, OpBlake2b] at head
  | pubKeyEcdsa payload length =>
      cases rightAddress with
      | pubKey payload' length' =>
          simp [ofPubKey, ofPubKeyEcdsa, OpData32, OpData33] at head
      | pubKeyEcdsa payload' length' => simp [ofPubKeyEcdsa, length, length']
      | scriptHash hash' length' =>
          simp [ofPubKeyEcdsa, ofScriptHash, OpData33, OpBlake2b] at head
  | scriptHash hash length =>
      cases rightAddress with
      | pubKey payload' length' =>
          simp [ofPubKey, ofScriptHash, OpData32, OpBlake2b] at head
      | pubKeyEcdsa payload' length' =>
          simp [ofPubKeyEcdsa, ofScriptHash, OpData33, OpBlake2b] at head
      | scriptHash hash' length' => simp [ofScriptHash, length, length']

namespace IsAddress

variable {left right : ScriptPublicKey}

theorem version_eq (address : left.IsAddress) : left.version = 0 := by
  cases address <;> rfl

theorem head_of_prefix (address : left.IsAddress) (front : left.script <+: right.script) :
    left.script.head? = right.script.head? := by
  obtain ⟨rest, equal⟩ := front
  cases address <;> rw [← equal] <;> rfl

/-- No address script is a proper prefix of another, so the key bytes of an address script tell
where it ends. -/
theorem eq_of_prefix (leftAddress : left.IsAddress) (rightAddress : right.IsAddress)
    {rest : List ℕ} (front : left.keyBytes <+: right.keyBytes ++ rest) : left = right := by
  have comparable := List.prefix_or_prefix_of_prefix front (List.prefix_append right.keyBytes rest)
  rw [keyBytes, keyBytes, leftAddress.version_eq, rightAddress.version_eq,
    List.prefix_append_right_inj, List.prefix_append_right_inj] at comparable
  have scripts : left.script = right.script := by
    rcases comparable with shorter | longer
    · exact shorter.eq_of_length
        (leftAddress.length_eq rightAddress (leftAddress.head_of_prefix shorter))
    · exact (longer.eq_of_length
        (rightAddress.length_eq leftAddress (rightAddress.head_of_prefix longer))).symm
  refine keyBytes_injective ?_
  rw [keyBytes, keyBytes, leftAddress.version_eq, rightAddress.version_eq, scripts]

end IsAddress

end ScriptPublicKey

end Krc721
