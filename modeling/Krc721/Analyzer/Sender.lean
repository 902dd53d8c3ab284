import Krc721.Analyzer.Ascii
import Krc721.Analyzer.Reveal
import Krc721.Processor.Reorg

/-! The sender of a detected operation: on which inputs its key is asserted, and when it is a
key of the redeem script that the node executes. -/

set_option autoImplicit false

namespace Krc721

open SymbolStream

/-! Transactions that reveal redeem scripts. -/

namespace Sample

def aliceKey : List ℕ := List.replicate 32 1

/-- The redeem script of the listing of token 1 of the tick `A` by alice. -/
def offerScript : List ℕ := redeemScriptOf aliceKey (utf8 (sendInscription "a" 1))

def offerHash : List ℕ :=
  [79, 168, 49, 140, 145, 154, 2, 180, 211, 25, 172, 192, 46, 74, 135, 67, 45, 111, 78, 101, 86,
    223, 9, 109, 132, 126, 214, 49, 32, 230, 204, 246]

def market : Kaspa where
  mergeSetLimit := 2
  mergeSetLimit_pos := Nat.two_pos
  payToScriptHashScript := fun redeemScript =>
    if redeemScript = offerScript then .ofScriptHash offerHash
    else .ofScriptHash (List.replicate 32 0)

def crates : Crates := Ascii.crates market

theorem scriptLaws : crates.ScriptLaws := by
  refine Ascii.crates_scriptLaws fun redeemScript => ?_
  by_cases offer : redeemScript = offerScript
  · exact ⟨offerHash, rfl, if_pos offer⟩
  · exact ⟨List.replicate 32 0, rfl, if_neg offer⟩

theorem unicodeLaws : crates.unicode.Laws := Ascii.unicode_laws

theorem parsesSends : crates.ParsesSends := Ascii.crates_parsesSends market

theorem tokenIdsFit : crates.TokenIdsFit := Ascii.crates_tokenIdsFit market

theorem dataInPushes : crates.DataInPushes := Ascii.crates_dataInPushes market

theorem alphanumeric : ∀ char ∈ "A".toList, crates.unicode.isAlphanumeric char = true := by
  simp [crates, Ascii.crates, Ascii.unicode]

theorem plain : JsonPlain "A" := (unicodeLaws.jsonPlain "A" alphanumeric).1

theorem fromStr_tick : Tick.fromStr crates.unicode "A" = .ok tick := by
  have upper : crates.unicode.toUppercase "A" = "A" := by decide
  rw [Tick.fromStr_eq_ok_iff]
  simp only [upper]
  exact ⟨⟨alphanumeric, by decide, by decide, by decide⟩, rfl⟩

def analyzer : Analyzer where
  restrictedTokens _ := none
  addressPrefix := .mainnet
  restrictedProtocols := ["ipfs"]
  daaEcdsaFix := 10

/-- A signature, the redeem script, and what else the first input pushes. -/
def revealing (txId : TransactionId) (spent : TransactionOutpoint) (redeemScript tail : List ℕ)
    (fee : ℕ) (outputs : List TransactionOutput) : ContextTransaction where
  tx := {
    id := txId
    inputs := [⟨spent, dataPush (List.replicate 65 9) ++ (dataPush redeemScript ++ tail)⟩]
    outputs }
  fee
  blockTime := 0
  acceptingBlockDaaScore := 20

theorem revealing_reveals (txId : TransactionId) (spent : TransactionOutpoint)
    (redeemScript tail : List ℕ) (fee : ℕ) (outputs : List TransactionOutput) :
    RevealsScript crates (revealing txId spent redeemScript tail fee outputs) redeemScript := by
  obtain ⟨opcode, reads, _⟩ := scriptLaws.readsData (List.replicate 65 9) (by decide) (by decide)
  exact ⟨_, _, _, reads, rfl⟩

/-- The send of token 1 by alice, and what else the first input pushes. -/
def sending (tail : List ℕ) : ContextTransaction :=
  revealing 3 ⟨2, 0⟩ (redeemScriptOf aliceKey (utf8 (sendInscription "A" 1))) tail 0 [⟨50, bob⟩]

/-- The redeem script that drops what is below it and asks for another key. -/
def otherScript : List ℕ := 0x75 :: dataPush (List.replicate 32 3) ++ [OpCheckSig]

/-- A send whose key has one byte too many for `OpCheckSig`. -/
def misfit : ContextTransaction :=
  revealing 5 ⟨4, 0⟩ (redeemScriptOf (List.replicate 33 2) (utf8 (sendInscription "A" 1))) [] 0
    [⟨50, alice⟩]

end Sample

namespace Analyzer

variable {crates : Crates} {analyzer : Analyzer} {sigtx : ContextTransaction}
  {firstOpcode secondOpcode : Opcode} {model : UserOperation}
  {resolvedTo resolvedRoyaltyTo : Option Address}

/-- The first opcode has the key length that the second one asks for. -/
structure KeyFits (analyzer : Analyzer) (sigtx : ContextTransaction)
    (firstOpcode secondOpcode : Opcode) : Prop where
  schnorr : secondOpcode.value = OpCheckSig → firstOpcode.data.length = 32
  ecdsa : secondOpcode.value = OpCheckSigECDSA →
    analyzer.daaEcdsaFix ≤ sigtx.acceptingBlockDaaScore → firstOpcode.data.length = 33

theorem detectSender_ne_panicked_iff :
    analyzer.detectSender sigtx firstOpcode secondOpcode ≠ .error .panicked ↔
      KeyFits analyzer sigtx firstOpcode secondOpcode := by
  unfold detectSender
  by_cases schnorr : secondOpcode.value = OpCheckSig
  · rw [if_pos schnorr, payToPubKey]
    by_cases length : firstOpcode.data.length = 32
    · rw [if_pos length]
      refine iff_of_true (by simp) ⟨fun _ => length, fun ecdsa => ?_⟩
      rw [schnorr] at ecdsa
      cases ecdsa
    · rw [if_neg length]
      exact iff_of_false (by simp) fun fits => length (fits.schnorr schnorr)
  · rw [if_neg schnorr]
    by_cases ecdsa : secondOpcode.value = OpCheckSigECDSA
    · rw [if_pos ecdsa]
      by_cases early : sigtx.acceptingBlockDaaScore < analyzer.daaEcdsaFix
      · rw [if_pos early]
        exact iff_of_true (by simp) ⟨fun same => absurd same schnorr,
          fun _ late => absurd early (not_lt.2 late)⟩
      · rw [if_neg early, payToPubKeyEcdsa]
        by_cases length : firstOpcode.data.length = 33
        · rw [if_pos length]
          exact iff_of_true (by simp) ⟨fun same => absurd same schnorr, fun _ _ => length⟩
        · rw [if_neg length]
          exact iff_of_false (by simp) fun fits => length (fits.ecdsa ecdsa (not_lt.1 early))
    · rw [if_neg ecdsa]
      exact iff_of_true (by simp)
        ⟨fun same => absurd same schnorr, fun same => absurd same ecdsa⟩

/-! No operation but its sender panics. -/

theorem detectDiscount_ne_panicked (toParam : Option ScriptPublicKey) :
    detectDiscount model toParam ≠ .error .panicked := by
  simp [detectDiscount, bind_eq_error]

theorem detectTransfer_ne_panicked (toParam : Option ScriptPublicKey) :
    detectTransfer model toParam ≠ .error .panicked := by
  simp [detectTransfer, bind_eq_error]

theorem detectMint_ne_panicked (toParam : Option ScriptPublicKey) (sender : ScriptPublicKey) :
    detectMint sigtx toParam sender ≠ .error .panicked := by
  unfold detectMint
  split <;> simp

theorem detectRoyalty_ne_panicked (royaltyTo : ScriptPublicKey) (fee : Option ℕ) :
    detectRoyalty royaltyTo fee ≠ .error .panicked := by
  unfold detectRoyalty
  split
  · simp
  · split_ifs <;> simp

theorem checkRestricted_ne_panicked (sender : ScriptPublicKey) (tick : Tick) :
    analyzer.checkRestricted sender tick ≠ .error .panicked := by
  unfold checkRestricted
  split
  · split <;> simp
  · simp

theorem detectDeploy_ne_panicked (toParam : Option ScriptPublicKey)
    (royaltyTo sender : ScriptPublicKey) (tick : Tick) :
    analyzer.detectDeploy sigtx model toParam royaltyTo sender tick ≠ .error .panicked := by
  intro panics
  simp only [detectDeploy, bind_eq_error, checkRestricted_ne_panicked, okOr_ne_panicked,
    false_or] at panics
  obtain ⟨_, _, metadata, _, panics⟩ := panics
  split at panics
  · simp at panics
  · rcases bind_eq_error.1 panics with impossible | ⟨max, _, panics⟩
    · exact okOr_ne_panicked _ _ impossible
    · split_ifs at panics
      · simp at panics
      · simp at panics
      · simp at panics
      · rcases bind_eq_error.1 panics with impossible | ⟨royalty, _, panics⟩
        · exact detectRoyalty_ne_panicked _ _ impossible
        · cases panics

theorem detectSend_ne_panicked : detectSend sigtx model ≠ .error .panicked := by
  simp [detectSend, bind_eq_error]

theorem length_senderPubkeyBytes {pubkey : List ℕ}
    (found : crates.senderPubkeyBytes sigtx = some pubkey) :
    pubkey.length = 32 ∨ pubkey.length = 33 := by
  unfold Crates.senderPubkeyBytes at found
  split at found
  · cases found
  · split at found
    · split at found
      · cases found
      · split at found
        · split at found
          · rename_i fits
            cases found
            simp only [Bool.and_eq_true, Bool.or_eq_true, decide_eq_true_eq] at fits
            exact fits.2
          · cases found
        · cases found
    · cases found

theorem length_asStr {text : String} {tick : Tick}
    (parsed : Tick.fromStr crates.unicode text = .ok tick) :
    tick.asStr.toList.length ≤ TICK_LENGTH := by
  obtain ⟨isText, rfl⟩ := Tick.fromStr_eq_ok_iff.1 parsed
  rw [Tick.asStr_ofText]
  exact isText.maxLength

theorem detectList_ne_panicked (scriptLaws : crates.ScriptLaws)
    (unicodeLaws : crates.unicode.Laws) {tick : Tick}
    (short : tick.asStr.toList.length ≤ TICK_LENGTH)
    (bound : ∀ tokenId, model.tokenId = some tokenId → tokenId < 2 ^ 64) :
    analyzer.detectList crates sigtx model tick ≠ .error .panicked := by
  intro panics
  rcases bind_eq_error.1 panics with impossible | ⟨tokenId, id, panics⟩
  · exact okOr_ne_panicked _ _ impossible
  rcases bind_eq_error.1 panics with impossible | ⟨pubkey, found, panics⟩
  · exact okOr_ne_panicked _ _ impossible
  obtain ⟨address, computed⟩ := scriptLaws.computeListingP2sh_eq unicodeLaws
    (length_senderPubkeyBytes (okOr_eq_ok.1 found)) short (bound tokenId (okOr_eq_ok.1 id))
    analyzer.addressPrefix
  rw [computed] at panics
  rcases bind_eq_error.1 panics with impossible | ⟨pair, _, panics⟩
  · cases impossible
  rcases bind_eq_error.1 panics with impossible | ⟨utxoAddress, _, panics⟩
  · exact okOr_ne_panicked _ _ impossible
  · cases panics

theorem infoOf_ne_panicked (scriptLaws : crates.ScriptLaws)
    (unicodeLaws : crates.unicode.Laws) {tick : Tick}
    (short : tick.asStr.toList.length ≤ TICK_LENGTH)
    (bound : ∀ tokenId, model.tokenId = some tokenId → tokenId < 2 ^ 64)
    (toParam : Option ScriptPublicKey) (royaltyTo sender : ScriptPublicKey) :
    analyzer.infoOf crates sigtx model toParam royaltyTo sender tick ≠ .error .panicked := by
  unfold infoOf
  cases model.op with
  | discount => exact detectDiscount_ne_panicked _
  | transfer => exact detectTransfer_ne_panicked _
  | mint => exact detectMint_ne_panicked _ _
  | deploy => exact detectDeploy_ne_panicked _ _ _ _
  | list => exact detectList_ne_panicked scriptLaws unicodeLaws short bound
  | send => exact detectSend_ne_panicked

/-- The operation of an inscription panics exactly with its sender. -/
theorem operationOf_ne_panicked_iff (scriptLaws : crates.ScriptLaws)
    (unicodeLaws : crates.unicode.Laws)
    (bound : ∀ tokenId, model.tokenId = some tokenId → tokenId < 2 ^ 64) :
    analyzer.operationOf crates sigtx firstOpcode secondOpcode model resolvedTo
        resolvedRoyaltyTo ≠ .error .panicked ↔
      KeyFits analyzer sigtx firstOpcode secondOpcode := by
  rw [← detectSender_ne_panicked_iff]
  refine not_congr ⟨fun panics => ?_, fun panics => ?_⟩
  · rcases bind_eq_error.1 panics with panics | ⟨sender, _, panics⟩
    · exact panics
    rcases bind_eq_error.1 panics with impossible | ⟨tick, parsed, panics⟩
    · exact absurd impossible (orError_ne_panicked _ _)
    rcases bind_eq_error.1 panics with impossible | ⟨info, _, panics⟩
    · exact absurd impossible (infoOf_ne_panicked scriptLaws unicodeLaws
        (length_asStr (orError_eq_ok.1 parsed)) bound _ _ _)
    · cases panics
  · simp only [operationOf, panics, bind, Except.bind]

/-- The analyzer returns a result on a transaction exactly if every envelope that it takes from
the transaction has a key of the length that its second opcode asks for. -/
theorem detectKrc721_ne_panicked_iff (scriptLaws : crates.ScriptLaws)
    (unicodeLaws : crates.unicode.Laws) (idsFit : crates.TokenIdsFit) :
    analyzer.detectKrc721 crates sigtx ≠ .error .panicked ↔
      ∀ redeemScript envelope model resolvedTo resolvedRoyaltyTo,
        Reveals crates sigtx redeemScript envelope model →
        Resolves crates analyzer model resolvedTo resolvedRoyaltyTo →
          KeyFits analyzer sigtx envelope.first envelope.second := by
  constructor
  · intro safe redeemScript envelope model resolvedTo resolvedRoyaltyTo reveals resolves
    have operation : analyzer.operationOf crates sigtx envelope.first envelope.second model
        resolvedTo resolvedRoyaltyTo ≠ .error .panicked := by
      intro panics
      rw [detectKrc721_of_reveals reveals resolves, panics] at safe
      exact safe rfl
    exact (operationOf_ne_panicked_iff scriptLaws unicodeLaws
      (idsFit _ _ reveals.inscription)).1 operation
  · intro fits panics
    rcases detectKrc721_cases crates analyzer sigtx with passed | ⟨error, failed⟩ |
      ⟨redeemScript, envelope, model, resolvedTo, resolvedRoyaltyTo, reveals, resolves⟩
    · rw [passed] at panics
      cases panics
    · rw [failed] at panics
      cases panics
    · have safe : analyzer.operationOf crates sigtx envelope.first envelope.second model
          resolvedTo resolvedRoyaltyTo ≠ .error .panicked :=
        (operationOf_ne_panicked_iff scriptLaws unicodeLaws
          (idsFit _ _ reveals.inscription)).2 (fits _ _ _ _ _ reveals resolves)
      rw [detectKrc721_of_reveals reveals resolves] at panics
      rcases ok_or_error safe with ⟨operation, success⟩ | ⟨error, failed⟩
      · rw [success] at panics
        cases panics
      · rw [failed] at panics
        cases panics

theorem detectKrc721_ne_panicked_iff_misfit :
    Sample.analyzer.detectKrc721 Sample.crates Sample.misfit ≠ .error .panicked ↔
      ∀ redeemScript envelope model resolvedTo resolvedRoyaltyTo,
        Reveals Sample.crates Sample.misfit redeemScript envelope model →
        Resolves Sample.crates Sample.analyzer model resolvedTo resolvedRoyaltyTo →
          KeyFits Sample.analyzer Sample.misfit envelope.first envelope.second :=
  detectKrc721_ne_panicked_iff Sample.scriptLaws Sample.unicodeLaws Sample.tokenIdsFit

/-- A key of the wrong length panics. -/
theorem misfit_panics :
    Sample.analyzer.detectKrc721 Sample.crates Sample.misfit = .error .panicked := by
  have accepted := (Sample.parsesSends.eq_ok_iff Sample.plain (by decide : 1 < 2 ^ 64)).2
    ⟨Sample.tick, Tick.deserialize_eq_ok_iff_fromStr.2 Sample.fromStr_tick, rfl⟩
  exact @detectKrc721_eq_panicked Sample.crates Sample.analyzer Sample.misfit _
    Sample.scriptLaws rfl _ (by decide)
    (headed_sendInscription "A" 1) (Sample.revealing_reveals _ _ _ _ _ _) _ accepted none none
    resolves_sendOperation

end Analyzer

/-! The redeem script that the node executes. -/

/-- The item that a push opcode leaves on the stack. -/
def Opcode.pushedItem (opcode : Opcode) : List ℕ :=
  if opcode.value = Op1Negate then [0x81]
  else if OpTrue ≤ opcode.value ∧ opcode.value ≤ Op16 then [opcode.value + 1 - OpTrue]
  else opcode.data

/-- The item pushed last is the redeem script of a pay-to-script-hash input. -/
def executedRedeemScript (opcodes : List Opcode) : Option (List ℕ) :=
  opcodes.getLast?.map Opcode.pushedItem

theorem ne_nil_of_detectKrc721Header {data : List ℕ} (header : detectKrc721Header data = true) :
    data ≠ [] := by
  rintro rfl
  cases header

theorem Crates.DataInPushes.pushedItem_eq {crates : Crates} (dataInPushes : crates.DataInPushes)
    {script : List ℕ} {opcode : Opcode} (member : .ok opcode ∈ crates.parseScript script)
    (nonempty : opcode.data ≠ []) : opcode.pushedItem = opcode.data := by
  obtain ⟨symbol, rest, read⟩ := Reader.mem_batching crates.deserializeNextOpcode member
  have low : ¬ Op1Negate ≤ opcode.value :=
    fun high => nonempty (dataInPushes symbol rest opcode read.symm high)
  unfold Opcode.pushedItem
  unfold Op1Negate at low ⊢
  unfold OpTrue Op16
  rw [if_neg (by omega), if_neg (by omega)]

/-- The redeem script that is revealed is the second item of the signature script. -/
theorem Reveals.second {crates : Crates} {sigtx : ContextTransaction} {redeemScript : List ℕ}
    {envelope : RedeemEnvelope} {model : UserOperation}
    (reveals : Reveals crates sigtx redeemScript envelope model)
    {script : List ℕ} {opcodes : List Opcode} (signed : sigtx.signatureScript = some script)
    (parsed : crates.parseScript script = opcodes.map .ok) :
    ∃ opcode, opcodes[1]? = some opcode ∧ opcode.data = redeemScript ∧ redeemScript ≠ [] := by
  obtain ⟨signatureScript, opcode, signed', _, redeem, rfl⟩ := reveals.script
  rw [signed] at signed'
  cases signed'
  obtain ⟨second, _, _, header⟩ := redeemOpcode_eq_ok_iff.1 redeem
  rw [parsed, List.getElem?_map, Option.map_eq_some_iff] at second
  obtain ⟨found, second, same⟩ := second
  cases same
  exact ⟨opcode, second, rfl, ne_nil_of_detectKrc721Header header⟩

def OperationInfo.op : OperationInfo → Op
  | .deploy _ => .deploy
  | .mint _ => .mint
  | .transfer _ => .transfer
  | .discount _ => .discount
  | .list _ => .list
  | .send _ => .send

namespace Analyzer

variable {crates : Crates} {analyzer : Analyzer} {sigtx : ContextTransaction}

theorem detectKrc721_eq_ok_some {operation : Operation}
    (detected : analyzer.detectKrc721 crates sigtx = .ok (some operation)) :
    ∃ redeemScript envelope model resolvedTo resolvedRoyaltyTo,
      Reveals crates sigtx redeemScript envelope model ∧
        Resolves crates analyzer model resolvedTo resolvedRoyaltyTo ∧
        analyzer.operationOf crates sigtx envelope.first envelope.second model resolvedTo
          resolvedRoyaltyTo = .ok operation := by
  rcases detectKrc721_cases crates analyzer sigtx with passed | ⟨error, failed⟩ |
    ⟨redeemScript, envelope, model, resolvedTo, resolvedRoyaltyTo, reveals, resolves⟩
  · rw [passed] at detected
    cases detected
  · rw [failed] at detected
    cases detected
  · refine ⟨redeemScript, envelope, model, resolvedTo, resolvedRoyaltyTo, reveals, resolves, ?_⟩
    rw [detectKrc721_of_reveals reveals resolves] at detected
    cases success : analyzer.operationOf crates sigtx envelope.first envelope.second model
      resolvedTo resolvedRoyaltyTo with
    | error failure =>
        rw [success] at detected
        cases detected
    | ok found =>
        rw [success] at detected
        cases detected
        rfl

theorem op_infoOf {model : UserOperation} {toParam : Option ScriptPublicKey}
    {royaltyTo sender : ScriptPublicKey} {tick : Tick} {info : OperationInfo}
    (success : analyzer.infoOf crates sigtx model toParam royaltyTo sender tick = .ok info) :
    model.op = info.op := by
  unfold infoOf at success
  cases kind : model.op with
  | discount =>
      simp only [kind, detectDiscount, bind_eq_ok, Except.ok.injEq] at success
      obtain ⟨fee, _, toSpk, _, rfl⟩ := success
      rfl
  | transfer =>
      simp only [kind, detectTransfer, bind_eq_ok, Except.ok.injEq] at success
      obtain ⟨tokenId, _, toSpk, _, rfl⟩ := success
      rfl
  | mint =>
      simp only [kind, detectMint] at success
      split at success
      · cases success
      · cases success
        rfl
  | deploy =>
      simp only [kind, detectDeploy, bind_eq_ok] at success
      obtain ⟨_, _, metadata, _, success⟩ := success
      split at success
      · cases success
      · obtain ⟨max, _, success⟩ := bind_eq_ok.1 success
        split_ifs at success
        obtain ⟨royalty, _, success⟩ := bind_eq_ok.1 success
        cases success
        rfl
  | list =>
      simp only [kind, detectList, bind_eq_ok, Except.ok.injEq] at success
      obtain ⟨tokenId, _, pubkey, _, pair, _, utxoAddress, _, rfl⟩ := success
      rfl
  | send =>
      simp only [kind, detectSend, bind_eq_ok, Except.ok.injEq] at success
      obtain ⟨tokenId, _, amount, _, txid, _, rfl⟩ := success
      rfl

theorem infoOf_eq_list {model : UserOperation} {toParam : Option ScriptPublicKey}
    {royaltyTo sender : ScriptPublicKey} {tick : Tick} {info : ListingInfo}
    (success : analyzer.infoOf crates sigtx model toParam royaltyTo sender tick =
      .ok (.list info)) : analyzer.detectList crates sigtx model tick = .ok (.list info) := by
  have kind := op_infoOf success
  rw [infoOf, kind] at success
  exact success

theorem infoOf_eq_send {model : UserOperation} {toParam : Option ScriptPublicKey}
    {royaltyTo sender : ScriptPublicKey} {tick : Tick} {info : SendInfo}
    (success : analyzer.infoOf crates sigtx model toParam royaltyTo sender tick =
      .ok (.send info)) : detectSend sigtx model = .ok (.send info) := by
  have kind := op_infoOf success
  rw [infoOf, kind] at success
  exact success

/-- What an operation takes from its transaction. -/
theorem operationOf_eq_ok {firstOpcode secondOpcode : Opcode} {model : UserOperation}
    {resolvedTo resolvedRoyaltyTo : Option Address} {operation : Operation}
    (success : analyzer.operationOf crates sigtx firstOpcode secondOpcode model resolvedTo
      resolvedRoyaltyTo = .ok operation) :
    analyzer.detectSender sigtx firstOpcode secondOpcode = .ok operation.common.sender ∧
      Tick.fromStr crates.unicode model.tick.asStr = .ok operation.common.tick ∧
      operation.common.txId = sigtx.tx.id ∧
      analyzer.infoOf crates sigtx model (resolvedTo.map crates.payToAddressScript)
        ((resolvedRoyaltyTo.map crates.payToAddressScript).getD operation.common.sender)
        operation.common.sender operation.common.tick = .ok operation.info := by
  obtain ⟨sender, sent, success⟩ := bind_eq_ok.1 success
  obtain ⟨tick, parsed, success⟩ := bind_eq_ok.1 success
  obtain ⟨info, detected, success⟩ := bind_eq_ok.1 success
  cases success
  exact ⟨sent, orError_eq_ok.1 parsed, rfl, detected⟩

/-- The envelope of a detected operation, from which its sender is taken, is the redeem script
that the node executes exactly if the signature script has two opcodes or pushes the envelope
once more at its end. -/
theorem executedRedeemScript_iff (dataInPushes : crates.DataInPushes) {script : List ℕ}
    {opcodes : List Opcode} {operation : Operation}
    (signed : sigtx.signatureScript = some script)
    (parsed : crates.parseScript script = opcodes.map .ok)
    (detected : analyzer.detectKrc721 crates sigtx = .ok (some operation)) :
    (∃ redeemScript envelope model, Reveals crates sigtx redeemScript envelope model ∧
        analyzer.detectSender sigtx envelope.first envelope.second =
          .ok operation.common.sender ∧
        executedRedeemScript opcodes = some redeemScript) ↔
      opcodes.length = 2 ∨
        opcodes.getLast?.map Opcode.pushedItem = opcodes[1]?.map Opcode.pushedItem := by
  obtain ⟨redeemScript, envelope, model, resolvedTo, resolvedRoyaltyTo, reveals, resolves,
    success⟩ := detectKrc721_eq_ok_some detected
  have pushed {redeemScript : List ℕ} {envelope : RedeemEnvelope} {model : UserOperation}
      (reveals : Reveals crates sigtx redeemScript envelope model) :
      opcodes[1]?.map Opcode.pushedItem = some redeemScript := by
    obtain ⟨opcode, second, rfl, nonempty⟩ := reveals.second signed parsed
    have member : .ok opcode ∈ crates.parseScript script := by
      rw [parsed]
      exact List.mem_map_of_mem (List.mem_of_getElem? second)
    rw [second, Option.map_some, dataInPushes.pushedItem_eq member nonempty]
  constructor
  · rintro ⟨redeemScript', envelope', model', reveals', _, executed⟩
    exact .inr (executed.trans (pushed reveals').symm)
  · intro condition
    refine ⟨redeemScript, envelope, model, reveals, (operationOf_eq_ok success).1, ?_⟩
    rw [← pushed reveals]
    rcases condition with two | again
    · match opcodes, two with
      | [first, second], _ => rfl
    · exact again

theorem sending_detected (tail : List ℕ) : ∃ operation,
    Sample.analyzer.detectKrc721 Sample.crates (Sample.sending tail) = .ok (some operation) ∧
      operation.common.sender = Sample.alice := by
  obtain ⟨operation, _, detected, _, _, _, sender, _⟩ :=
    @detectKrc721_send Sample.crates Sample.analyzer (Sample.sending tail) Sample.aliceKey "A"
      Sample.tick 1 Sample.scriptLaws Sample.parsesSends Sample.plain (by decide) (by decide)
      (Tick.deserialize_eq_ok_iff_fromStr.2 Sample.fromStr_tick) Sample.fromStr_tick rfl
      (Sample.revealing_reveals _ _ _ _ _ _) (by simp [Sample.sending, Sample.revealing])
  exact ⟨operation, detected, sender⟩

theorem executedRedeemScript_iff_sending : ∃ script opcodes operation,
    (Sample.sending []).signatureScript = some script ∧
      Sample.crates.parseScript script = opcodes.map .ok ∧
      Sample.analyzer.detectKrc721 Sample.crates (Sample.sending []) = .ok (some operation) ∧
      ((∃ redeemScript envelope model,
          Reveals Sample.crates (Sample.sending []) redeemScript envelope model ∧
          Sample.analyzer.detectSender (Sample.sending []) envelope.first envelope.second =
            .ok operation.common.sender ∧
          executedRedeemScript opcodes = some redeemScript) ↔
        opcodes.length = 2 ∨
          opcodes.getLast?.map Opcode.pushedItem = opcodes[1]?.map Opcode.pushedItem) := by
  obtain ⟨opcodes, _, parsed⟩ := Sample.scriptLaws.exists_pushes
    [List.replicate 65 9, redeemScriptOf Sample.aliceKey (utf8 (sendInscription "A" 1))]
    (by decide)
  obtain ⟨operation, detected, _⟩ := sending_detected []
  exact ⟨_, opcodes, operation, rfl, parsed, detected,
    executedRedeemScript_iff Sample.dataInPushes rfl parsed detected⟩

/-- The operation of alice, from a transaction whose redeem script asks for another key. -/
theorem sending_forged : ∃ script opcodes operation,
    (Sample.sending (dataPush Sample.otherScript)).signatureScript = some script ∧
      Sample.crates.parseScript script = opcodes.map .ok ∧
      (∀ opcode ∈ opcodes, opcode.isPushOpcode = true) ∧
      Sample.analyzer.detectKrc721 Sample.crates (Sample.sending (dataPush Sample.otherScript)) =
        .ok (some operation) ∧
      operation.common.sender = Sample.alice ∧
      executedRedeemScript opcodes = some Sample.otherScript ∧
      ¬ ∃ redeemScript envelope model, Reveals Sample.crates
          (Sample.sending (dataPush Sample.otherScript)) redeemScript envelope model ∧
        executedRedeemScript opcodes = some redeemScript := by
  obtain ⟨opcodes, pushes, parsed⟩ := Sample.scriptLaws.exists_pushes
    [List.replicate 65 9, redeemScriptOf Sample.aliceKey (utf8 (sendInscription "A" 1)),
      Sample.otherScript] (by decide)
  obtain ⟨operation, detected, sender⟩ := sending_detected (dataPush Sample.otherScript)
  cases pushes with
  | @cons signature _ _ _ first pushes =>
  cases pushes with
  | @cons envelopeOpcode _ _ _ second pushes =>
  cases pushes with
  | @cons last _ _ _ third pushes =>
  cases pushes
  have member : .ok last ∈ Sample.crates.parseScript ([List.replicate 65 9,
      redeemScriptOf Sample.aliceKey (utf8 (sendInscription "A" 1)),
      Sample.otherScript].map dataPush).flatten := by
    rw [parsed]
    simp
  have executed : executedRedeemScript [signature, envelopeOpcode, last] =
      some Sample.otherScript := by
    have item := Sample.dataInPushes.pushedItem_eq member
      (by rw [third.data_eq]; decide)
    simp only [executedRedeemScript, List.getLast?_cons_cons, List.getLast?_singleton,
      Option.map_some, item, third.data_eq]
  refine ⟨_, _, operation, rfl, parsed, ?_, detected, sender, executed, ?_⟩
  · simp [first.isPushOpcode, second.isPushOpcode, third.isPushOpcode]
  · rintro ⟨redeemScript, envelope, model, reveals, last'⟩
    obtain ⟨opcode, found, data, _⟩ := reveals.second rfl parsed
    simp only [List.getElem?_cons_succ, List.getElem?_cons_zero, Option.some.injEq] at found
    subst found
    rw [executed, ← data, second.data_eq, Option.some.injEq] at last'
    exact absurd (congrArg List.head? last') (by decide)

end Analyzer

end Krc721
