import Krc721.Stream.Reader
import Krc721.Analyzer.Inscription
import Krc721.Processor.Operations

/-! The redeem envelope: which bytes of a signature script are taken for it, and the shape
its opcodes must have. -/

set_option autoImplicit false

namespace Krc721

open SymbolStream

/-- An opcode as the script parser returns it. -/
structure Opcode where
  value : ℕ
  data : List ℕ
  isPushOpcode : Bool
  isEmpty : Bool
deriving DecidableEq, Inhabited

/-- What the analyzer takes from other crates. `addData`, `addOp` and `addI64` are the
steps of the script builder, from the script so far to the longer one. -/
structure Crates extends Kaspa where
  unicode : Unicode
  deserializeNextOpcode : Reader ℕ (Except TxScriptError Opcode)
  addData : List ℕ → List ℕ → Except TxScriptError (List ℕ)
  addOp : ℕ → List ℕ → Except TxScriptError (List ℕ)
  addI64 : ℤ → List ℕ → Except TxScriptError (List ℕ)
  extractScriptPubKeyAddress : ScriptPublicKey → Prefix → Except TxScriptError Address
  payToAddressScript : Address → ScriptPublicKey
  parseAddress : String → Except AddressError Address
  addressErrorText : AddressError → String
  parseUserOperation : List ℕ → Except SerdeError UserOperation

def Crates.parseScript (crates : Crates) (script : List ℕ) :
    List (Except TxScriptError Opcode) :=
  crates.deserializeNextOpcode.batching script

/-- The bytes of `kspr`. -/
def PROTOCOL_KSPR_NAMESPACE : List ℕ := [0x6b, 0x73, 0x70, 0x72]

def KSPR_U8_STRICT : List ℕ := [0x00, 0x63, 0x04, 0x6b, 0x73, 0x70, 0x72]

def KSPR_U8_STRICT_UC : List ℕ := [0x00, 0x63, 0x04, 0x4b, 0x53, 0x50, 0x52]

/-- The bytes of `krc-721`. -/
def KRC721_HEADER_UC : List ℕ := [0x6b, 0x72, 0x63, 0x2d, 0x37, 0x32, 0x31]

/-- The bytes of `KRC-721`. -/
def KRC721_HEADER_LC : List ℕ := [0x4b, 0x52, 0x43, 0x2d, 0x37, 0x32, 0x31]

/-- The offset at which every header search begins. -/
def headerOffset : ℕ := 10

def detectKsprHeader (haystack : List ℕ) : Bool :=
  (windowFind headerOffset haystack KSPR_U8_STRICT).isSome ||
    (windowFind headerOffset haystack KSPR_U8_STRICT_UC).isSome

def detectKrc721Header (haystack : List ℕ) : Bool :=
  (windowFind headerOffset haystack KRC721_HEADER_UC).isSome ||
    (windowFind headerOffset haystack KRC721_HEADER_LC).isSome

/-- The second opcode of a signature script, once it passes the checks of the redeem
script. -/
def redeemOpcode (opcodes : List (Except TxScriptError Opcode)) : Except Failure Opcode :=
  match (opcodes[1]? : Option (Except TxScriptError Opcode)) with
  | none => .error (.error .insufficientOpcodeLen)
  | some (.error error) => .error (.error (.txScript error))
  | some (.ok opcode) =>
      if opcode.isEmpty then .error (.error .emptyOpcodeData)
      else if !opcode.isPushOpcode then .error (.error .missingKrc721Header)
      else if !detectKrc721Header opcode.data then .error (.error .missingKrc721Header)
      else .ok opcode

/-- Indexing a slice; an index out of bounds panics. -/
def indexOpcode (opcodes : List Opcode) (index : ℕ) : Except Failure Opcode :=
  match opcodes[index]? with
  | none => .error .panicked
  | some opcode => .ok opcode

/-- A check of the envelope, with the message it fails with. -/
def checkEnvelope (valid : Bool) (message : String) : Except Failure Unit :=
  if valid then .ok () else .error (.error (.invalidRedeemEnvelopeFormat message))

def validateCommonOpcodes (innerOpcodes : List Opcode) : Except Failure Unit := do
  let opFalse ← indexOpcode innerOpcodes 2
  checkEnvelope (opFalse.value = OpFalse) "OpFalse missing"
  let opIf ← indexOpcode innerOpcodes 3
  checkEnvelope (opIf.value = OpIf) "OpIf missing"
  let protocolOpcode ← indexOpcode innerOpcodes 4
  checkEnvelope (protocolOpcode.isPushOpcode && protocolOpcode.data = PROTOCOL_KSPR_NAMESPACE)
    "Invalid or missing protocol"

def validateOptionalContent (opcodes : List Opcode) : Except Failure Unit := do
  let marker ← indexOpcode opcodes 0
  checkEnvelope (marker.value = OpTrue) "Missing optional content marker"
  let content ← indexOpcode opcodes 1
  checkEnvelope (!content.isEmpty && content.isPushOpcode) "Missing optional content"

def validateMandatoryContent (opcodes : List Opcode) : Except Failure Unit := do
  let marker ← indexOpcode opcodes 0
  checkEnvelope (marker.value = OpFalse) "Missing mandatory content marker"
  let content ← indexOpcode opcodes 1
  checkEnvelope (!content.isEmpty && content.isPushOpcode) "Missing mandatory content"
  let last ← indexOpcode opcodes 2
  checkEnvelope (last.value = OpEndIf) "Content marker invalid"

def validateRedeemEnvelope (innerOpcodes : List Opcode) : Except Failure Unit :=
  match innerOpcodes.length with
  | 8 => do
      validateCommonOpcodes innerOpcodes
      validateMandatoryContent ((innerOpcodes.drop 5).take 3)
  | 10 => do
      validateCommonOpcodes innerOpcodes
      validateOptionalContent ((innerOpcodes.drop 5).take 2)
      validateMandatoryContent ((innerOpcodes.drop 7).take 3)
  | _ => .error (.error .unsupportedEnvelopeLength)

/-! What the checks say about the opcodes. -/

structure RedeemEnvelope where
  first : Opcode
  second : Opcode
  opFalse : Opcode
  opIf : Opcode
  protocol : Opcode
  optional : Option (Opcode × Opcode)
  marker : Opcode
  content : Opcode
  last : Opcode

namespace RedeemEnvelope

def opcodes (envelope : RedeemEnvelope) : List Opcode :=
  [envelope.first, envelope.second, envelope.opFalse, envelope.opIf, envelope.protocol] ++
    (match envelope.optional with
      | none => []
      | some (marker, content) => [marker, content]) ++
    [envelope.marker, envelope.content, envelope.last]

/-- The first two opcodes are free: no check looks at them. -/
structure IsValid (envelope : RedeemEnvelope) : Prop where
  opFalse : envelope.opFalse.value = OpFalse
  opIf : envelope.opIf.value = OpIf
  protocol : envelope.protocol.isPushOpcode = true ∧
    envelope.protocol.data = PROTOCOL_KSPR_NAMESPACE
  optional : ∀ marker content, envelope.optional = some (marker, content) →
    marker.value = OpTrue ∧ content.isEmpty = false ∧ content.isPushOpcode = true
  marker : envelope.marker.value = OpFalse
  content : envelope.content.isEmpty = false ∧ envelope.content.isPushOpcode = true
  last : envelope.last.value = OpEndIf

end RedeemEnvelope

theorem redeemOpcode_eq_ok_iff {opcodes : List (Except TxScriptError Opcode)} {opcode : Opcode} :
    redeemOpcode opcodes = .ok opcode ↔
      opcodes[1]? = some (.ok opcode) ∧ opcode.isEmpty = false ∧ opcode.isPushOpcode = true ∧
        detectKrc721Header opcode.data = true := by
  unfold redeemOpcode
  cases opcodes[1]? with
  | none => simp
  | some result =>
      cases result with
      | error error => simp
      | ok found =>
          simp only [Option.some.injEq, Except.ok.injEq]
          split_ifs with empty push header
          · simp only [false_iff]
            rintro ⟨rfl, nonempty, _⟩
            simp [nonempty] at empty
          · simp only [false_iff]
            rintro ⟨rfl, _, isPush, _⟩
            simp [isPush] at push
          · simp only [false_iff]
            rintro ⟨rfl, _, _, found⟩
            simp [found] at header
          · simp only [Bool.not_eq_true, Bool.not_eq_true', Bool.not_eq_false] at empty push header
            constructor
            · intro same
              cases same
              exact ⟨rfl, empty, push, header⟩
            · rintro ⟨rfl, _⟩
              rfl

@[simp] theorem redeemOpcode_ne_panicked (opcodes : List (Except TxScriptError Opcode)) :
    redeemOpcode opcodes ≠ .error .panicked := by
  unfold redeemOpcode
  cases opcodes[1]? with
  | none => simp
  | some result =>
      cases result with
      | error error => simp
      | ok found => simp only; split_ifs <;> simp

theorem indexOpcode_eq_ok {opcodes : List Opcode} {index : ℕ} {opcode : Opcode} :
    indexOpcode opcodes index = .ok opcode ↔ opcodes[index]? = some opcode := by
  unfold indexOpcode
  cases opcodes[index]? <;> simp

theorem checkEnvelope_eq_ok {valid : Bool} {message : String} {done : Unit} :
    checkEnvelope valid message = .ok done ↔ valid = true := by
  cases valid <;> simp [checkEnvelope]

@[simp] theorem checkEnvelope_ne_panicked (valid : Bool) (message : String) :
    checkEnvelope valid message ≠ .error .panicked := by
  cases valid <;> simp [checkEnvelope]

namespace RedeemEnvelope

/-- Eight or ten opcodes are the parts of an envelope. -/
theorem exists_opcodes_eq {innerOpcodes : List Opcode}
    (length : innerOpcodes.length = 8 ∨ innerOpcodes.length = 10) :
    ∃ envelope : RedeemEnvelope, envelope.opcodes = innerOpcodes := by
  cases length with
  | inl eight =>
      match innerOpcodes, eight with
      | [o0, o1, o2, o3, o4, o5, o6, o7], _ =>
          exact ⟨⟨o0, o1, o2, o3, o4, none, o5, o6, o7⟩, rfl⟩
  | inr ten =>
      match innerOpcodes, ten with
      | [o0, o1, o2, o3, o4, o5, o6, o7, o8, o9], _ =>
          exact ⟨⟨o0, o1, o2, o3, o4, some (o5, o6), o7, o8, o9⟩, rfl⟩

theorem validateRedeemEnvelope_opcodes (envelope : RedeemEnvelope) :
    validateRedeemEnvelope envelope.opcodes = .ok () ↔ envelope.IsValid := by
  obtain ⟨first, second, opFalse, opIf, protocol, optional, marker, content, last⟩ := envelope
  cases optional with
  | none =>
      simp only [validateRedeemEnvelope, opcodes, validateCommonOpcodes, validateMandatoryContent,
        bind_eq_ok, indexOpcode_eq_ok, checkEnvelope_eq_ok, List.append_nil, List.cons_append,
        List.nil_append, List.length_cons, List.length_nil, Nat.reduceAdd, List.drop_succ_cons,
        List.drop_zero, List.take_succ_cons, List.take_zero, List.getElem?_cons_succ,
        List.getElem?_cons_zero, Option.some.injEq, decide_eq_true_eq, Bool.and_eq_true,
        Bool.not_eq_true', exists_eq_left', exists_const]
      constructor
      · rintro ⟨⟨isFalse, isIf, isProtocol⟩, isMarker, isContent, isLast⟩
        constructor
        all_goals first | assumption | simp
      · rintro ⟨isFalse, isIf, isProtocol, isOptional, isMarker, isContent, isLast⟩
        exact ⟨⟨isFalse, isIf, isProtocol⟩, isMarker, isContent, isLast⟩
  | some pair =>
      obtain ⟨optionalMarker, optionalContent⟩ := pair
      simp only [validateRedeemEnvelope, opcodes, validateCommonOpcodes, validateOptionalContent,
        validateMandatoryContent, bind_eq_ok, indexOpcode_eq_ok, checkEnvelope_eq_ok,
        List.cons_append, List.nil_append, List.length_cons, List.length_nil, Nat.reduceAdd,
        List.drop_succ_cons, List.drop_zero, List.take_succ_cons, List.take_zero,
        List.getElem?_cons_succ, List.getElem?_cons_zero, Option.some.injEq, decide_eq_true_eq,
        Bool.and_eq_true, Bool.not_eq_true', exists_eq_left', exists_const]
      constructor
      · rintro ⟨⟨isFalse, isIf, isProtocol⟩, ⟨isTrue, isOptional⟩, isMarker, isContent, isLast⟩
        constructor
        all_goals first | assumption | simp_all
      · rintro ⟨isFalse, isIf, isProtocol, isOptional, isMarker, isContent, isLast⟩
        obtain ⟨isTrue, isOptionalContent⟩ := isOptional _ _ rfl
        exact ⟨⟨isFalse, isIf, isProtocol⟩, ⟨isTrue, isOptionalContent⟩, isMarker, isContent,
          isLast⟩

end RedeemEnvelope

end Krc721
