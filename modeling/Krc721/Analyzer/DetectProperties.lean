import Krc721.Analyzer.Detect

/-! What a detection says of its transaction: the envelope its signature script reveals, the
sender of the envelope, and the inputs on which the analyzer panics. -/

set_option autoImplicit false

namespace Krc721

open SymbolStream

theorem ok_or_error {Value : Type} {stage : Except Failure Value}
    (safe : stage ≠ .error .panicked) :
    (∃ value, stage = .ok value) ∨ ∃ error, stage = .error (.error error) := by
  cases stage with
  | ok value => exact .inl ⟨value, rfl⟩
  | error failure =>
      cases failure with
      | error error => exact .inr ⟨error, rfl⟩
      | panicked => exact absurd rfl safe

/-- The envelope is indexed within its bounds. -/
theorem validateRedeemEnvelope_ne_panicked (innerOpcodes : List Opcode) :
    validateRedeemEnvelope innerOpcodes ≠ .error .panicked := by
  by_cases length : innerOpcodes.length = 8 ∨ innerOpcodes.length = 10
  · obtain ⟨envelope, rfl⟩ := RedeemEnvelope.exists_opcodes_eq length
    obtain ⟨first, second, opFalse, opIf, protocol, optional, marker, content, last⟩ := envelope
    cases optional with
    | none =>
        simp [validateRedeemEnvelope, RedeemEnvelope.opcodes, validateCommonOpcodes,
          validateMandatoryContent, indexOpcode, bind_eq_error]
    | some pair =>
        simp [validateRedeemEnvelope, RedeemEnvelope.opcodes, validateCommonOpcodes,
          validateOptionalContent, validateMandatoryContent, indexOpcode, bind_eq_error]
  · unfold validateRedeemEnvelope
    split
    · exact absurd (.inl ‹_›) length
    · exact absurd (.inr ‹_›) length
    · simp

/-- An accepted envelope has the parts of a valid one. -/
theorem exists_envelope_of_valid {innerOpcodes : List Opcode}
    (valid : validateRedeemEnvelope innerOpcodes = .ok ()) :
    ∃ envelope : RedeemEnvelope, innerOpcodes = envelope.opcodes ∧ envelope.IsValid := by
  have length : innerOpcodes.length = 8 ∨ innerOpcodes.length = 10 := by
    unfold validateRedeemEnvelope at valid
    split at valid
    · exact .inl ‹_›
    · exact .inr ‹_›
    · cases valid
  obtain ⟨envelope, rfl⟩ := RedeemEnvelope.exists_opcodes_eq length
  exact ⟨envelope, rfl, envelope.validateRedeemEnvelope_opcodes.1 valid⟩

namespace RedeemEnvelope

variable (envelope : RedeemEnvelope)

@[simp] theorem indexOpcode_first : indexOpcode envelope.opcodes 0 = .ok envelope.first := rfl

@[simp] theorem indexOpcode_second : indexOpcode envelope.opcodes 1 = .ok envelope.second := rfl

/-- The content is the last opcode but one, with or without optional content. -/
@[simp] theorem indexOpcode_content :
    indexOpcode envelope.opcodes (envelope.opcodes.length - 2) = .ok envelope.content := by
  obtain ⟨first, second, opFalse, opIf, protocol, optional, marker, content, last⟩ := envelope
  cases optional <;> rfl

end RedeemEnvelope

/-- The signature script reveals the redeem script, and its opcodes are the envelope. -/
structure RevealsEnvelope (crates : Crates) (sigtx : ContextTransaction) (redeemScript : List ℕ)
    (envelope : RedeemEnvelope) : Prop where
  script : ∃ signatureScript opcode, sigtx.signatureScript = some signatureScript ∧
    detectKsprHeader signatureScript = true ∧
    redeemOpcode (crates.parseScript signatureScript) = .ok opcode ∧ opcode.data = redeemScript
  parsed : crates.parseScript redeemScript = envelope.opcodes.map .ok
  valid : envelope.IsValid

/-- The content of the envelope is the inscription. -/
structure Reveals (crates : Crates) (sigtx : ContextTransaction) (redeemScript : List ℕ)
    (envelope : RedeemEnvelope) (model : UserOperation) : Prop
    extends RevealsEnvelope crates sigtx redeemScript envelope where
  inscription : crates.parseUserOperation envelope.content.data = .ok model

namespace Analyzer

variable {crates : Crates} {analyzer : Analyzer} {sigtx : ContextTransaction}

structure Resolves (crates : Crates) (analyzer : Analyzer) (model : UserOperation)
    (resolvedTo resolvedRoyaltyTo : Option Address) : Prop where
  toAddress : analyzer.resolveAddress crates "to" model.toAddress = .ok resolvedTo
  royaltyTo : analyzer.resolveAddress crates "royalty_to" model.royaltyTo = .ok resolvedRoyaltyTo

theorem resolveAddress_ne_panicked (fieldName : String) (field : Option String) :
    analyzer.resolveAddress crates fieldName field ≠ .error .panicked := by
  unfold resolveAddress
  split
  · simp
  · split
    · simp
    · split <;> simp

theorem detectKrc721_of_reveals {redeemScript : List ℕ} {envelope : RedeemEnvelope}
    {model : UserOperation} {resolvedTo resolvedRoyaltyTo : Option Address}
    (reveals : Reveals crates sigtx redeemScript envelope model)
    (resolves : Resolves crates analyzer model resolvedTo resolvedRoyaltyTo) :
    analyzer.detectKrc721 crates sigtx =
      (analyzer.operationOf crates sigtx envelope.first envelope.second model resolvedTo
        resolvedRoyaltyTo).map some := by
  obtain ⟨signatureScript, opcode, signed, header, redeem, rfl⟩ := reveals.script
  have content : envelope.content.isPushOpcode = true := reveals.valid.content.2
  simp only [detectKrc721, signed, header, Bool.not_true, Bool.false_eq_true, if_false, redeem,
    reveals.parsed, collect_map_ok, orError_ok, bind, Except.bind,
    envelope.validateRedeemEnvelope_opcodes.2 reveals.valid, RedeemEnvelope.indexOpcode_first,
    RedeemEnvelope.indexOpcode_second, RedeemEnvelope.indexOpcode_content, checkEnvelope, content,
    if_true, reveals.inscription, resolves.toAddress, resolves.royaltyTo]
  cases analyzer.operationOf crates sigtx envelope.first envelope.second model resolvedTo
    resolvedRoyaltyTo <;> rfl

/-- Every transaction is passed over, is an error, or reveals an inscription. -/
theorem detectKrc721_cases (crates : Crates) (analyzer : Analyzer) (sigtx : ContextTransaction) :
    analyzer.detectKrc721 crates sigtx = .ok none ∨
      (∃ error, analyzer.detectKrc721 crates sigtx = .error (.error error)) ∨
      ∃ redeemScript envelope model resolvedTo resolvedRoyaltyTo,
        Reveals crates sigtx redeemScript envelope model ∧
          Resolves crates analyzer model resolvedTo resolvedRoyaltyTo := by
  cases signed : sigtx.signatureScript with
  | none => exact .inl (by simp [detectKrc721, signed])
  | some signatureScript =>
      cases header : detectKsprHeader signatureScript with
      | false => exact .inl (by simp [detectKrc721, signed, header])
      | true =>
          right
          rcases ok_or_error (redeemOpcode_ne_panicked (crates.parseScript signatureScript)) with
            ⟨opcode, redeem⟩ | ⟨error, redeem⟩
          case inr => exact .inl ⟨error, by
            simp [detectKrc721, signed, header, redeem, bind, Except.bind]⟩
          cases parsed : collect (crates.parseScript opcode.data) with
          | error error => exact .inl ⟨.txScript error, by
              simp [detectKrc721, signed, header, redeem, parsed, orError, bind, Except.bind]⟩
          | ok innerOpcodes =>
              rcases ok_or_error (validateRedeemEnvelope_ne_panicked innerOpcodes) with
                ⟨_, valid⟩ | ⟨error, valid⟩
              case inr => exact .inl ⟨error, by
                simp [detectKrc721, signed, header, redeem, parsed, valid, bind, Except.bind]⟩
              obtain ⟨envelope, rfl, isValid⟩ := exists_envelope_of_valid valid
              have content : envelope.content.isPushOpcode = true := isValid.content.2
              cases inscription : crates.parseUserOperation envelope.content.data with
              | error error => exact .inl ⟨.serdeWithPath error, by
                  simp [detectKrc721, signed, header, redeem, parsed, valid, content,
                    checkEnvelope, inscription, orError, bind, Except.bind]⟩
              | ok model =>
                  have reveals : Reveals crates sigtx opcode.data envelope model :=
                    ⟨⟨⟨signatureScript, opcode, signed, header, redeem, rfl⟩,
                      eq_map_ok_of_collect parsed, isValid⟩, inscription⟩
                  rcases ok_or_error
                      (@resolveAddress_ne_panicked crates analyzer "to" model.toAddress) with
                    ⟨resolvedTo, toAddress⟩ | ⟨error, toAddress⟩
                  case inr => exact .inl ⟨error, by
                    simp [detectKrc721, signed, header, redeem, parsed, valid, content,
                      checkEnvelope, inscription, toAddress, bind, Except.bind]⟩
                  rcases ok_or_error (@resolveAddress_ne_panicked crates analyzer "royalty_to"
                      model.royaltyTo) with
                    ⟨resolvedRoyaltyTo, royaltyTo⟩ | ⟨error, royaltyTo⟩
                  case inr => exact .inl ⟨error, by
                    simp [detectKrc721, signed, header, redeem, parsed, valid, content,
                      checkEnvelope, inscription, toAddress, royaltyTo, bind, Except.bind]⟩
                  exact .inr ⟨_, _, _, _, _, reveals, ⟨toAddress, royaltyTo⟩⟩

end Analyzer

end Krc721
