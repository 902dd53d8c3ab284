import Krc721.Analyzer.Sender

/-! The security budget of a deployment: the fee that the documents ask for, in exact
arithmetic, and the fee that `detect_krc721` compares with, in the arithmetic of a `u64`. -/

set_option autoImplicit false

namespace Krc721

open SymbolStream

def deployBudget (premint : ℕ) : ℕ := KSPR_FEE_DEPLOY + premint * KSPR_FEE_MINT

/-- Every deployment with this supply, premint and fee that is detected pays the budget. -/
def DeploysOnBudget (max premint fee : ℕ) : Prop :=
  ∀ (crates : Crates) (analyzer : Analyzer) (sigtx : ContextTransaction)
    (common : OperationCommon) (info : DeployInfo), sigtx.fee = fee →
    analyzer.detectKrc721 crates sigtx = .ok (some ⟨common, .deploy info⟩) →
    info.max = max → info.premint = premint → deployBudget premint ≤ fee

namespace Analyzer

theorem totalDeployFee_eq_mod (premint : ℕ) :
    totalDeployFee premint = deployBudget premint % 2 ^ 64 := by
  unfold totalDeployFee deployBudget
  exact Nat.add_mod_mod _ _ _

/-- The total that fits a `u64` is exact. -/
theorem totalDeployFee_eq {premint : ℕ} (fits : deployBudget premint < 2 ^ 64) :
    totalDeployFee premint = deployBudget premint := by
  rw [totalDeployFee_eq_mod, Nat.mod_eq_of_lt fits]

variable {crates : Crates} {analyzer : Analyzer} {sigtx : ContextTransaction}

theorem infoOf_eq_deploy {model : UserOperation} {toParam : Option ScriptPublicKey}
    {royaltyTo sender : ScriptPublicKey} {tick : Tick} {info : DeployInfo}
    (success : analyzer.infoOf crates sigtx model toParam royaltyTo sender tick =
      .ok (.deploy info)) :
    analyzer.detectDeploy sigtx model toParam royaltyTo sender tick = .ok (.deploy info) := by
  have kind := op_infoOf success
  rw [infoOf, kind] at success
  exact success

theorem detected_deploy {operation : Operation} {info : DeployInfo}
    (detected : analyzer.detectKrc721 crates sigtx = .ok (some operation))
    (kind : operation.info = .deploy info) :
    info.max ≠ u64Max ∧ info.premint ≤ info.max ∧ totalDeployFee info.premint ≤ sigtx.fee := by
  obtain ⟨_, _, model, _, _, _, _, success⟩ := detectKrc721_eq_ok_some detected
  obtain ⟨_, _, _, asked⟩ := operationOf_eq_ok success
  rw [kind] at asked
  have deployed := infoOf_eq_deploy asked
  obtain ⟨_, _, deployed⟩ := bind_eq_ok.1 deployed
  obtain ⟨metadata, _, deployed⟩ := bind_eq_ok.1 deployed
  split at deployed
  · cases deployed
  obtain ⟨max, _, deployed⟩ := bind_eq_ok.1 deployed
  simp only at deployed
  split_ifs at deployed with top above short
  obtain ⟨royalty, _, built⟩ := bind_eq_ok.1 deployed
  cases built
  exact ⟨top, not_lt.1 above, not_lt.1 short⟩

end Analyzer

/-! Deployments with every supply, premint and fee. -/

namespace Ascii

theorem utf8_ofList (chars : List Char) :
    utf8 (String.ofList chars) = (chars.flatMap String.utf8EncodeChar).map UInt8.toNat := by
  rw [utf8, String.toList_ofList]

/-- An object whose first member names the protocol has the header. -/
theorem headed_objectText (field : List Char × List Char) (fields : List (List Char × List Char)) :
    Headed (utf8 (String.ofList
      (objectText (("p".toList, "krc-721".toList) :: field :: fields)))) := by
  have header : KRC721_HEADER_UC =
      ("krc-721".toList.flatMap String.utf8EncodeChar).map UInt8.toNat := by
    decide
  have whole : objectText (("p".toList, "krc-721".toList) :: field :: fields) =
      ([quote].intercalate [[Char.ofNat 123], "p".toList, [':'], []] ++ "krc-721".toList) ++
        (quote :: [quote].intercalate ([','] :: memberPieces (field :: fields))) := by
    simp [objectText, memberPieces, List.intercalate, List.intersperse]
  rw [whole, utf8_ofList, List.flatMap_append, List.flatMap_append, List.map_append,
    List.map_append, ← header]
  exact ⟨_, _, rfl⟩

end Ascii

namespace Sample

def deployFields (text : String) (max premint : ℕ) : List (List Char × List Char) :=
  [("p".toList, "krc-721".toList), ("op".toList, "deploy".toList), ("tick".toList, text.toList),
    ("max".toList, Nat.toDigits 10 max), ("premint".toList, Nat.toDigits 10 premint),
    ("buri".toList, "ipfs".toList)]

def deployModel (max premint : ℕ) (tick : Tick) : UserOperation :=
  { sendOperation 0 tick with
    op := .deploy
    tokenId := none
    metadata := some (.remote "ipfs")
    max := some max
    premint := some premint }

section

variable {max premint : ℕ}

theorem userOperationOf_deployFields (maxFits : max < 2 ^ 64) (premintFits : premint < 2 ^ 64)
    (text : String) :
    Ascii.userOperationOf (deployFields text max premint) =
      (Tick.deserialize Ascii.unicode text).toOption.map (deployModel max premint) := by
  generalize same : deployFields text max premint = fields
  have protocol : fields.lookup "p".toList = some "krc-721".toList := by
    rw [← same]
    rfl
  have op : (fields.lookup "op".toList).bind Ascii.parseOp = some .deploy := by
    rw [← same]
    rfl
  have tickField : fields.lookup "tick".toList = some text.toList := by
    rw [← same]
    rfl
  have supply : Ascii.numberField fields "max" = some (some max) := by
    rw [← same]
    change (Ascii.parseNumber (Nat.toDigits 10 max)).map some = _
    rw [Ascii.parseNumber_toDigits maxFits]
    rfl
  have preminted : Ascii.numberField fields "premint" = some (some premint) := by
    rw [← same]
    change (Ascii.parseNumber (Nat.toDigits 10 premint)).map some = _
    rw [Ascii.parseNumber_toDigits premintFits]
    rfl
  have buri : Ascii.textField fields "buri" = some "ipfs" := by
    rw [← same]
    rfl
  have absent {name : String}
      (missing : (deployFields text max premint).lookup name.toList = none) :
      Ascii.numberField fields name = some none := by
    rw [Ascii.numberField, ← same, missing]
  have other {name : String} (missing : (deployFields text max premint).lookup name.toList = none) :
      Ascii.textField fields name = none := by
    rw [Ascii.textField, ← same, missing]
    rfl
  unfold Ascii.userOperationOf
  rw [protocol, op, tickField, @absent "tokenId" rfl, supply, @absent "royaltyFee" rfl,
    @absent "daaMintStart" rfl, @absent "discountFee" rfl, preminted, buri, @other "to" rfl,
    @other "royaltyTo" rfl]
  simp only [bind, Option.bind_some, String.ofList_toList, if_true]
  cases (Tick.deserialize Ascii.unicode text).toOption <;> rfl

theorem quote_notMem_toDigits (number : ℕ) : Ascii.quote ∉ Nat.toDigits 10 number :=
  fun member => Ascii.ne_quote_of_isDigit
    (Nat.isDigit_of_mem_toDigits (by decide) (by decide) member) rfl

theorem unquoted_deployFields (max premint : ℕ) :
    Ascii.Unquoted (deployFields "A" max premint) := by
  simp only [deployFields, Ascii.Unquoted, List.forall_mem_cons]
  exact ⟨⟨by decide, by decide⟩, ⟨by decide, by decide⟩, ⟨by decide, by decide⟩,
    ⟨by decide, quote_notMem_toDigits max⟩, ⟨by decide, quote_notMem_toDigits premint⟩,
    ⟨by decide, by decide⟩, by simp⟩

theorem length_deployFields_le (maxFits : max < 2 ^ 64) (premintFits : premint < 2 ^ 64) :
    (utf8 (String.ofList (Ascii.objectText (deployFields "A" max premint)))).length ≤ 250 := by
  have whole : Ascii.objectText (deployFields "A" max premint) =
      [Ascii.quote].intercalate [[Char.ofNat 123], "p".toList, [':'], "krc-721".toList, [','],
        "op".toList, [':'], "deploy".toList, [','], "tick".toList, [':'], "A".toList, [','],
        "max".toList, [':'], []] ++ Nat.toDigits 10 max ++
      [Ascii.quote].intercalate [[], [','], "premint".toList, [':'], []] ++
        Nat.toDigits 10 premint ++
      [Ascii.quote].intercalate [[], [','], "buri".toList, [':'], "ipfs".toList,
        [Char.ofNat 125]] := by
    simp [deployFields, Ascii.objectText, Ascii.memberPieces, List.intercalate, List.intersperse]
  have digits {number : ℕ} (fits : number < 2 ^ 64) :
      ((Nat.toDigits 10 number).flatMap String.utf8EncodeChar).length ≤ 80 := by
    have short := length_utf8_toString_le fits
    rwa [Nat.toString_eq_ofList_toDigits, Ascii.utf8_ofList, List.length_map] at short
  have maxDigits := digits maxFits
  have premintDigits := digits premintFits
  rw [whole, Ascii.utf8_ofList, List.length_map]
  simp only [List.flatMap_append, List.length_append]
  have front : (([Ascii.quote].intercalate [[Char.ofNat 123], "p".toList, [':'],
      "krc-721".toList, [','], "op".toList, [':'], "deploy".toList, [','], "tick".toList, [':'],
      "A".toList, [','], "max".toList, [':'], []]).flatMap String.utf8EncodeChar).length = 47 := by
    decide +kernel
  have middle : (([Ascii.quote].intercalate [[], [','], "premint".toList, [':'], []]).flatMap
      String.utf8EncodeChar).length = 13 := by
    decide +kernel
  have back : (([Ascii.quote].intercalate [[], [','], "buri".toList, [':'], "ipfs".toList,
      [Char.ofNat 125]]).flatMap String.utf8EncodeChar).length = 16 := by
    decide +kernel
  omega

end

def inscribing (txId : TransactionId) (spent : TransactionOutpoint)
    (fields : List (List Char × List Char)) (fee : ℕ) (outputs : List TransactionOutput) :
    ContextTransaction :=
  revealing txId spent
    (redeemScriptOf aliceKey (utf8 (String.ofList (Ascii.objectText fields)))) [] fee outputs

theorem deserialize_tick : Tick.deserialize crates.unicode "A" = .ok tick :=
  Tick.deserialize_eq_ok_iff_fromStr.2 fromStr_tick

theorem inscribing_detected {fields : List (List Char × List Char)} (nonempty : fields ≠ [])
    (unquoted : Ascii.Unquoted fields) {model : UserOperation}
    (operation : Ascii.userOperationOf fields = some model) (noTo : model.toAddress = none)
    (noRoyaltyTo : model.royaltyTo = none)
    (payloadMax : (utf8 (String.ofList (Ascii.objectText fields))).length ≤ 250)
    (headed : Headed (utf8 (String.ofList (Ascii.objectText fields))))
    {txId : TransactionId} {spent : TransactionOutpoint} {fee : ℕ}
    {outputs : List TransactionOutput} {tick : Tick} {info : OperationInfo}
    (parsed : Tick.fromStr crates.unicode model.tick.asStr = .ok tick)
    (asks : analyzer.infoOf crates (inscribing txId spent fields fee outputs) model none alice alice
      tick = .ok info) :
    analyzer.detectKrc721 crates (inscribing txId spent fields fee outputs) =
      .ok (some ⟨⟨tick, txId, 0, alice, fee, 20⟩, info⟩) := by
  have resolves : Analyzer.Resolves crates analyzer model none none := by
    constructor
    · rw [noTo]
      rfl
    · rw [noRoyaltyTo]
      rfl
  have accepted : crates.parseUserOperation (utf8 (String.ofList (Ascii.objectText fields))) =
      .ok model := Ascii.parseUserOperation_objectText nonempty unquoted operation
  obtain ⟨firstOpcode, secondOpcode, first, second, detected⟩ :=
    @Analyzer.detectKrc721_of_redeemScript crates analyzer
      (inscribing txId spent fields fee outputs) aliceKey scriptLaws (.inl rfl) _ payloadMax headed
      (revealing_reveals _ _ _ _ _ _) model accepted none none resolves
  have success : analyzer.operationOf crates (inscribing txId spent fields fee outputs) firstOpcode
      secondOpcode model none none = .ok ⟨⟨tick, txId, 0, alice, fee, 20⟩, info⟩ :=
    bind_eq_ok.2 ⟨_, Analyzer.detectSender_eq_ofPubKey first second rfl,
      bind_eq_ok.2 ⟨tick, orError_eq_ok.2 parsed, bind_eq_ok.2 ⟨info, asks, rfl⟩⟩⟩
  rw [detected, success]
  rfl

/-- Alice deploys with this supply, premint and fee. -/
def deploying (max premint fee : ℕ) : ContextTransaction :=
  inscribing 1 ⟨0, 0⟩ (deployFields "A" max premint) fee []

/-- A deployment whose premint is within its supply is detected at the fee that the analyzer
computes. -/
theorem deploying_detected {max premint fee : ℕ} (below : max < u64Max) (within : premint ≤ max)
    (paid : Analyzer.totalDeployFee premint ≤ fee) :
    analyzer.detectKrc721 crates (deploying max premint fee) =
      .ok (some ⟨⟨tick, 1, 0, alice, fee, 20⟩,
        .deploy ⟨.remote "ipfs", max, alice, none, 0, premint⟩⟩) := by
  have maxFits : max < 2 ^ 64 := below.trans (by decide)
  have premintFits : premint < 2 ^ 64 := within.trans_lt maxFits
  have operation : Ascii.userOperationOf (deployFields "A" max premint) =
      some (deployModel max premint tick) := by
    have read : Tick.deserialize Ascii.unicode "A" = .ok tick := deserialize_tick
    rw [userOperationOf_deployFields maxFits premintFits, read]
    rfl
  have parsed : Tick.fromStr crates.unicode (deployModel max premint tick).tick.asStr = .ok tick :=
    Tick.IsValid.fromStr_asStr ⟨"A", fromStr_tick⟩ unicodeLaws
  have asks : analyzer.infoOf crates (deploying max premint fee) (deployModel max premint tick)
      none alice alice tick = .ok (.deploy ⟨.remote "ipfs", max, alice, none, 0, premint⟩) := by
    have allowed : (Metadata.remote "ipfs").hasIncompatibleUriPrefix
        analyzer.restrictedProtocols = false := by
      decide
    refine bind_eq_ok.2 ⟨(), rfl, bind_eq_ok.2 ⟨.remote "ipfs", rfl, ?_⟩⟩
    rw [allowed]
    refine bind_eq_ok.2 ⟨max, rfl, ?_⟩
    rw [if_neg below.ne]
    have covered : ¬ (deploying max premint fee).fee < Analyzer.totalDeployFee premint :=
      not_lt.2 paid
    exact (if_neg (not_lt.2 within)).trans ((if_neg covered).trans rfl)
  exact inscribing_detected (List.cons_ne_nil _ _) (unquoted_deployFields max premint) operation
    rfl rfl (length_deployFields_le maxFits premintFits) (Ascii.headed_objectText _ _) parsed asks

end Sample

/-- The budget is kept exactly if it fits a `u64`, or the deployment is refused. -/
theorem deploysOnBudget_iff {max premint fee : ℕ} (maxFits : max ≤ u64Max)
    (feeFits : fee ≤ u64Max) :
    DeploysOnBudget max premint fee ↔ deployBudget premint < 2 ^ 64 ∨ max = u64Max ∨
      max < premint ∨ fee < Analyzer.totalDeployFee premint := by
  constructor
  · intro onBudget
    by_contra accepted
    push Not at accepted
    obtain ⟨wraps, top, within, paid⟩ := accepted
    have covered := onBudget _ _ _ _ _ rfl (Sample.deploying_detected
      (lt_of_le_of_ne maxFits top) within paid) rfl rfl
    have tooMuch := wraps.trans covered
    unfold u64Max at feeFits
    omega
  · rintro refused crates analyzer sigtx common info rfl detected rfl rfl
    obtain ⟨top, within, paid⟩ := Analyzer.detected_deploy detected rfl
    rcases refused with fits | atTop | above | short
    · rwa [Analyzer.totalDeployFee_eq fits] at paid
    · exact absurd atTop top
    · exact absurd above (not_lt.2 within)
    · exact absurd short (not_lt.2 paid)

theorem deploysOnBudget_iff_one : DeploysOnBudget 3 1 101000000000 ↔
    deployBudget 1 < 2 ^ 64 ∨ 3 = u64Max ∨ 3 < 1 ∨
      101000000000 < Analyzer.totalDeployFee 1 :=
  deploysOnBudget_iff (by decide) (by decide)

/-- A premint of more than eighteen billion tokens is detected at a fee of less than three KAS. -/
theorem not_deploysOnBudget_wrapped :
    (∃ operation, Sample.analyzer.detectKrc721 Sample.crates
      (Sample.deploying 18446743974 18446743974 290448384) = .ok (some operation)) ∧
      ¬ DeploysOnBudget 18446743974 18446743974 290448384 := by
  have detected := @Sample.deploying_detected 18446743974 18446743974 290448384 (by decide) le_rfl
    (by decide)
  refine ⟨⟨_, detected⟩, fun onBudget => ?_⟩
  have covered := onBudget _ _ _ _ _ rfl detected rfl rfl
  exact absurd covered (by decide)

end Krc721
