import Yonder.Lib.Fallible
import Yonder.Wire.FileTransferFrame

/-!
# The codec of file transfer frames

`encode` and `decode_frame` with the errors they return. A string field has its own limits when it is
written; when it is read, one rule serves for several fields: the name of a `DownloadOffer` is read as a
path, which may be empty and may be four times as long. That it is neither follows from the bounds on the
whole payload, together with the check that no byte is left over.

`frame_codec`: what is encoded is decoded as it was, an accepted control frame is the encoding of its
message, and every accepted field keeps the limits of that field.
-/

namespace Yonder.Wire

open Lib

/-- The fields that an error of a transfer frame names. -/
inductive TransferField where
  | fileTransferPath
  | fileTransferFileName
  | fileTransferSize
  | fileTransferData
  | fileTransferErrorCode
deriving DecidableEq, Repr

/-- The errors of a transfer frame. -/
inductive TransferFrameError where
  | invalidLength (expected actual : Nat)
  | unknownTag (tag : UInt8)
  | trailingBytes
  | invalidField (field : TransferField)
deriving DecidableEq, Repr

/-- The result of a function of the codec. -/
abbrev Framing := Except TransferFrameError

/-- The field that the errors of a string field name. -/
def ProtocolField.named : ProtocolField → TransferField
  | path => .fileTransferPath
  | fileName => .fileTransferFileName

/-! ## Writing -/

/-- `validate_protocol_path`. -/
def validateProtocolPathChecked (bytes : Bytes) : Framing Unit :=
  if validateProtocolPath bytes then .ok () else .error (.invalidField .fileTransferPath)

/-- `write_field`: the bytes that are written behind those before. -/
def writeFieldChecked (value : String) (field : ProtocolField) (allowEmpty : Bool) : Framing Bytes :=
  let bytes := utf8 value
  if allowEmpty = false ∧ bytes = [] then .error (.invalidField field.named)
  else if field.maxLen < bytes.length then .error (.invalidField field.named)
  else do
    validateProtocolPathChecked bytes
    return beBytes 2 bytes.length ++ bytes

/-- The payload of a control message. -/
def controlPayload : FileTransferMessage → Framing Bytes
  | .uploadOpen destination fileName declaredSize => do
      let destination ← writeFieldChecked destination .path true
      let fileName ← writeFieldChecked fileName .fileName false
      return destination ++ (fileName ++ Codec.u64.enc declaredSize)
  | .downloadOpen source => writeFieldChecked source .path false
  | .downloadOffer fileName declaredSize => do
      let fileName ← writeFieldChecked fileName .fileName false
      return fileName ++ Codec.u64.enc declaredSize
  | .ready => .ok []
  | .finish actualSize digest => .ok (Codec.u64.enc actualSize ++ digest.1)
  | .committed => .ok []
  | .cancel => .ok []
  | .error code => .ok (Codec.u16.enc code.code)
  | .data _ => .error (.invalidField .fileTransferData)

/-- `encode`. -/
def FileTransferMessage.encode (m : FileTransferMessage) : Framing Bytes := do
  let payload ← controlPayload m
  return encodeFrameHeader (tagOf m) payload.length ++ payload

/-! ## Reading -/

/-- `decode_frame_header` on the five bytes of a header. -/
def decodeFrameHeader (bytes : Bytes) : Framing (TransferTag × Nat) :=
  if bytes.length ≠ frameHeaderLen then .error (.invalidLength frameHeaderLen bytes.length)
  else
    let tag := bytes.headD 0
    match TransferTag.fromByte tag with
    | none => .error (.unknownTag tag)
    | some t => .ok (t, beNat (bytes.drop 1))

/-- `validate_payload_len`. -/
def validatePayloadLen (tag : TransferTag) (len : Nat) : Framing Unit :=
  if tag.allows len then .ok () else .error (.invalidLength 0 len)

/-- The rule for the bytes of a string field: a name must not be empty and has its own bound. -/
def checkStringField (field : ProtocolField) (bytes : Bytes) : Framing Unit :=
  match field with
  | .path => validateProtocolPathChecked bytes
  | .fileName =>
    if bytes = [] then .error (.invalidField .fileTransferFileName)
    else do
      validateProtocolPathChecked bytes
      if maxFileNameLen < bytes.length then throw (.invalidField .fileTransferFileName)

/-- `take_string_field`. -/
def takeStringFieldChecked (input : Bytes) (field : ProtocolField) : Framing (String × Bytes) :=
  if input.length < 2 then .error (.invalidField field.named)
  else
    let len := beNat (input.take 2)
    if input.length < 2 + len then .error (.invalidField field.named)
    else do
      let bytes := (input.drop 2).take len
      checkStringField field bytes
      match ofUtf8 bytes with
      | none => throw (.invalidField .fileTransferPath)
      | some text => return (text, input.drop (2 + len))

/-- `take_u64`. -/
def takeU64 (input : Bytes) : Framing (UInt64 × Bytes) :=
  match Codec.u64.dec (input.take 8) with
  | none => .error (.invalidField .fileTransferSize)
  | some value => .ok (value, input.drop 8)

/-- The check behind the last field of a payload. -/
def requireEmpty (rest : Bytes) : Framing Unit :=
  if rest = [] then .ok () else .error .trailingBytes

/-- `decode_payload`. -/
def decodePayloadChecked : TransferTag → Bytes → Framing FileTransferMessage
  | .uploadOpen, payload => do
      let (destination, rest) ← takeStringFieldChecked payload .path
      let (fileName, rest) ← takeStringFieldChecked rest .fileName
      let (declaredSize, rest) ← takeU64 rest
      requireEmpty rest
      return .uploadOpen destination fileName declaredSize
  | .downloadOpen, payload => do
      let (source, rest) ← takeStringFieldChecked payload .path
      requireEmpty rest
      return .downloadOpen source
  | .downloadOffer, payload => do
      let (fileName, rest) ← takeStringFieldChecked payload .path
      let (declaredSize, rest) ← takeU64 rest
      requireEmpty rest
      return .downloadOffer fileName declaredSize
  | .ready, _ => .ok .ready
  | .data, payload => .ok (.data payload)
  | .finish, payload => do
      let (actualSize, rest) ← takeU64 payload
      match (Codec.bytes 32).dec rest with
      | none => throw (.invalidLength finishLen payload.length)
      | some digest => return .finish actualSize digest
  | .committed, _ => .ok .committed
  | .cancel, _ => .ok .cancel
  | .error, payload =>
    match Codec.u16.dec payload with
    | none => .error (.invalidLength 2 payload.length)
    | some value =>
      match FileTransferErrorCode.fromU16 value with
      | none => .error (.invalidField .fileTransferErrorCode)
      | some code => .ok (.error code)

/-- `decode_frame`. -/
def decodeFrame (frame : Bytes) : Framing FileTransferMessage :=
  if frame.length < frameHeaderLen then .error (.invalidLength frameHeaderLen frame.length)
  else do
    let (tag, payloadLen) ← decodeFrameHeader (frame.take frameHeaderLen)
    validatePayloadLen tag payloadLen
    let expected := frameHeaderLen + payloadLen
    if frame.length < expected then throw (.invalidLength expected frame.length)
    if expected < frame.length then throw .trailingBytes
    decodePayloadChecked tag (frame.drop frameHeaderLen)

/-! ## Fields -/

theorem validateProtocolPathChecked_ok {bytes : Bytes} :
    validateProtocolPathChecked bytes = .ok () ↔ validateProtocolPath bytes = true := by
  unfold validateProtocolPathChecked
  split
  case isTrue h => exact ⟨fun _ => h, fun _ => rfl⟩
  case isFalse h => exact ⟨fun h' => (by cases h'), fun h' => absurd h' h⟩

theorem validateProtocolPath_utf8 {value : String} :
    validateProtocolPath (utf8 value) = true ↔
      (utf8 value).length ≤ maxPathLen ∧ ∀ c ∈ value.toList, isControl c = false := by
  rw [validateProtocolPath, (ofUtf8_eq_some _ _).2 rfl]
  simp

/-- The limits of a field: its length in bytes, whether it may be empty, and no control character. -/
structure FieldRules (limit : Nat) (allowEmpty : Bool) (value : String) : Prop where
  length_le : (utf8 value).length ≤ limit
  nonempty : allowEmpty = false → utf8 value ≠ []
  printable : ∀ c ∈ value.toList, isControl c = false

theorem maxLen_le_maxPathLen (field : ProtocolField) : field.maxLen ≤ maxPathLen := by
  cases field <;> decide

/-- A field is written exactly if it keeps its limits. -/
theorem writeFieldChecked_ok {value : String} {field : ProtocolField} {allowEmpty : Bool}
    {bytes : Bytes} :
    writeFieldChecked value field allowEmpty = .ok bytes ↔
      FieldRules field.maxLen allowEmpty value ∧ bytes = beBytes 2 (utf8 value).length ++ utf8 value := by
  unfold writeFieldChecked
  dsimp only
  by_cases hempty : allowEmpty = false ∧ utf8 value = []
  · rw [if_pos hempty]
    refine ⟨fun h => (by cases h), fun h => ?_⟩
    exact absurd hempty.2 (h.1.nonempty hempty.1)
  · rw [if_neg hempty]
    by_cases hlong : field.maxLen < (utf8 value).length
    · rw [if_pos hlong]
      refine ⟨fun h => (by cases h), fun h => ?_⟩
      exact absurd h.1.length_le (Nat.not_le_of_lt hlong)
    · rw [if_neg hlong, bind_eq_ok_iff]
      constructor
      · rintro ⟨⟨⟩, hvalid, hbytes⟩
        have hprintable := (validateProtocolPath_utf8.1 (validateProtocolPathChecked_ok.1 hvalid)).2
        refine ⟨⟨Nat.le_of_not_lt hlong, fun hno hnil => hempty ⟨hno, hnil⟩, hprintable⟩, ?_⟩
        exact (Except.ok.inj hbytes).symm
      · rintro ⟨hrules, rfl⟩
        refine ⟨(), validateProtocolPathChecked_ok.2 (validateProtocolPath_utf8.2 ⟨?_, hrules.printable⟩), rfl⟩
        exact hrules.length_le.trans (maxLen_le_maxPathLen field)

theorem checkStringField_ok {field : ProtocolField} {bytes : Bytes} :
    checkStringField field bytes = .ok () ↔
      validateProtocolPath bytes = true ∧
        (field = .fileName → bytes ≠ [] ∧ bytes.length ≤ maxFileNameLen) := by
  cases field with
  | path =>
    rw [checkStringField, validateProtocolPathChecked_ok]
    exact ⟨fun h => ⟨h, fun hname => (by cases hname)⟩, fun h => h.1⟩
  | fileName =>
    unfold checkStringField
    dsimp only
    by_cases hempty : bytes = []
    · rw [if_pos hempty]
      exact ⟨fun h => (by cases h), fun h => absurd hempty (h.2 rfl).1⟩
    · rw [if_neg hempty, bind_eq_ok_iff]
      constructor
      · rintro ⟨⟨⟩, hvalid, hlong⟩
        refine ⟨validateProtocolPathChecked_ok.1 hvalid, fun _ => ⟨hempty, ?_⟩⟩
        by_contra hnot
        rw [if_pos (Nat.lt_of_not_le hnot)] at hlong
        cases hlong
      · rintro ⟨hvalid, hname⟩
        refine ⟨(), validateProtocolPathChecked_ok.2 hvalid, ?_⟩
        rw [if_neg (Nat.not_lt_of_le (hname rfl).2)]
        rfl

/-- The two bytes of a length, the bytes of a value and what follows them. -/
theorem take_drop_field {value : String} (h : (utf8 value).length ≤ maxPathLen) (rest : Bytes) :
    let input := beBytes 2 (utf8 value).length ++ utf8 value ++ rest
    beNat (input.take 2) = (utf8 value).length ∧
      (input.drop 2).take (utf8 value).length = utf8 value ∧
      input.drop (2 + (utf8 value).length) = rest ∧ input.length = 2 + (utf8 value).length + rest.length := by
  have htwo : (beBytes 2 (utf8 value).length).length = 2 := length_beBytes 2 _
  have hdrop : (beBytes 2 (utf8 value).length ++ utf8 value ++ rest).drop 2 = utf8 value ++ rest := by
    rw [List.append_assoc, List.drop_left' htwo]
  refine ⟨?_, ?_, ?_, ?_⟩
  · rw [List.append_assoc, List.take_left' htwo, beNat_beBytes_of_lt]
    change _ < 65536
    change _ ≤ 4096 at h
    omega
  · rw [hdrop, List.take_left]
  · rw [← List.drop_drop, hdrop, List.drop_left]
  · rw [List.length_append, List.length_append, htwo]

variable {rest : Bytes} {m : FileTransferMessage}

/-- A field is read exactly off the bytes that were written for it. -/
theorem takeStringFieldChecked_ok {input : Bytes} {value : String} {field : ProtocolField} :
    takeStringFieldChecked input field = .ok (value, rest) ↔
      FieldRules field.maxLen (field == .path) value ∧
        input = beBytes 2 (utf8 value).length ++ utf8 value ++ rest := by
  unfold takeStringFieldChecked
  dsimp only
  constructor
  · intro h
    by_cases htwo : input.length < 2
    · rw [if_pos htwo] at h
      cases h
    · rw [if_neg htwo] at h
      by_cases hlen : input.length < 2 + beNat (input.take 2)
      · rw [if_pos hlen] at h
        cases h
      · rw [if_neg hlen, bind_eq_ok_iff] at h
        obtain ⟨⟨⟩, hcheck, hrest⟩ := h
        obtain ⟨hvalid, hname⟩ := checkStringField_ok.1 hcheck
        split at hrest
        case h_1 => cases hrest
        case h_2 text htext =>
          cases hrest
          have hbytes := (ofUtf8_eq_some _ _).1 htext
          have hsize : (utf8 value).length = beNat (input.take 2) := by
            rw [hbytes, List.length_take, List.length_drop]
            omega
          rw [← hbytes] at hvalid hname
          obtain ⟨hpath, hprintable⟩ := validateProtocolPath_utf8.1 hvalid
          refine ⟨⟨?_, ?_, hprintable⟩, ?_⟩
          · cases field with
            | path => exact hpath
            | fileName => exact (hname rfl).2
          · intro hfield
            cases field with
            | path => cases hfield
            | fileName => exact (hname rfl).1
          · -- the length field is the one that the writer puts there
            have hword : beBytes 2 (utf8 value).length = input.take 2 := by
              have hround := beBytes_beNat (input.take 2)
              rw [List.length_take_of_le (Nat.le_of_not_lt htwo)] at hround
              rw [hsize, hround]
            rw [hword, hbytes, List.append_assoc, ← List.drop_drop, List.take_append_drop,
              List.take_append_drop]
  · rintro ⟨hrules, rfl⟩
    have hpath := hrules.length_le.trans (maxLen_le_maxPathLen field)
    obtain ⟨hlen, htake, hdrop, hsize⟩ := take_drop_field hpath rest
    have hcheck : checkStringField field (utf8 value) = .ok () := by
      refine checkStringField_ok.2 ⟨validateProtocolPath_utf8.2 ⟨hpath, hrules.printable⟩, ?_⟩
      rintro rfl
      exact ⟨hrules.nonempty rfl, hrules.length_le⟩
    rw [hsize, hlen, if_neg (by omega), if_neg (by omega), htake, hdrop, hcheck]
    have htext : ofUtf8 (utf8 value) = some value := (ofUtf8_eq_some _ _).2 rfl
    change (match ofUtf8 (utf8 value) with
      | none => _
      | some text => _) = _
    rw [htext]
    rfl

theorem takeU64_ok {input : Bytes} {value : UInt64} :
    takeU64 input = .ok (value, rest) ↔ input = Codec.u64.enc value ++ rest := by
  unfold takeU64
  constructor
  · intro h
    split at h
    case h_1 => cases h
    case h_2 value' hvalue =>
      cases h
      rw [Codec.u64.enc_of_dec hvalue, List.take_append_drop]
  · rintro rfl
    have hwidth : (Codec.u64.enc value).length = 8 := Codec.u64.enc_length value
    rw [List.take_left' hwidth, List.drop_left' hwidth, Codec.u64.dec_enc trivial]

theorem requireEmpty_ok {u : Unit} : requireEmpty rest = .ok u ↔ rest = [] := by
  unfold requireEmpty
  split
  case isTrue h => exact ⟨fun _ => h, fun _ => rfl⟩
  case isFalse h => exact ⟨fun h' => (by cases h'), fun h' => absurd h' h⟩

/-! ## Payloads -/

/-- The bytes of a string field. -/
def fieldBytes (value : String) : Bytes := beBytes 2 (utf8 value).length ++ utf8 value

theorem length_fieldBytes (value : String) : (fieldBytes value).length = 2 + (utf8 value).length := by
  rw [fieldBytes, List.length_append, length_beBytes]

/-- The payload of a message, whatever its fields are. -/
def payloadBytes : FileTransferMessage → Bytes
  | .uploadOpen destination fileName declaredSize =>
    fieldBytes destination ++ (fieldBytes fileName ++ Codec.u64.enc declaredSize)
  | .downloadOpen source => fieldBytes source
  | .downloadOffer fileName declaredSize => fieldBytes fileName ++ Codec.u64.enc declaredSize
  | .data bytes => bytes
  | .finish actualSize digest => Codec.u64.enc actualSize ++ digest.1
  | .error code => Codec.u16.enc code.code
  | .ready | .committed | .cancel => []

/-- Every string field keeps its limits: 4096 bytes for a path, 1024 for a name, and only the destination of
an `UploadOpen` may be empty. -/
def FieldsWithin : FileTransferMessage → Prop
  | .uploadOpen destination fileName _ =>
    FieldRules maxPathLen true destination ∧ FieldRules maxFileNameLen false fileName
  | .downloadOpen source => FieldRules maxPathLen false source
  | .downloadOffer fileName _ => FieldRules maxFileNameLen false fileName
  | _ => True

/-- A control message has a payload exactly if its fields keep their limits. -/
theorem controlPayload_ok {payload : Bytes} :
    controlPayload m = .ok payload ↔
      tagOf m ≠ .data ∧ FieldsWithin m ∧ payload = payloadBytes m := by
  cases m with
  | uploadOpen destination fileName declaredSize =>
    simp only [controlPayload, bind_eq_ok_iff, writeFieldChecked_ok]
    constructor
    · rintro ⟨_, ⟨hdestination, rfl⟩, _, ⟨hname, rfl⟩, hpayload⟩
      exact ⟨(by rintro ⟨⟩), ⟨hdestination, hname⟩, (Except.ok.inj hpayload).symm⟩
    · rintro ⟨-, ⟨hdestination, hname⟩, rfl⟩
      exact ⟨_, ⟨hdestination, rfl⟩, _, ⟨hname, rfl⟩, rfl⟩
  | downloadOpen source =>
    rw [controlPayload, writeFieldChecked_ok]
    exact ⟨fun h => ⟨(by rintro ⟨⟩), h⟩, fun h => h.2⟩
  | downloadOffer fileName declaredSize =>
    simp only [controlPayload, bind_eq_ok_iff, writeFieldChecked_ok]
    constructor
    · rintro ⟨_, ⟨hname, rfl⟩, hpayload⟩
      exact ⟨(by rintro ⟨⟩), hname, (Except.ok.inj hpayload).symm⟩
    · rintro ⟨-, hname, rfl⟩
      exact ⟨_, ⟨hname, rfl⟩, rfl⟩
  | data bytes => exact ⟨fun h => (by cases h), fun h => absurd rfl h.1⟩
  | ready | committed | cancel | finish | error =>
    refine ⟨fun h => ⟨(by rintro ⟨⟩), trivial, (Except.ok.inj h).symm⟩, ?_⟩
    rintro ⟨-, -, rfl⟩
    rfl

theorem fromU16_eq_some {value : UInt16} {code : FileTransferErrorCode} :
    FileTransferErrorCode.fromU16 value = some code ↔ code.code = value := by
  constructor
  · intro h
    have hfound : (code.code == value) = true :=
      List.find?_some (p := fun c : FileTransferErrorCode => c.code == value) h
    exact eq_of_beq hfound
  · rintro rfl
    exact FileTransferErrorCode.fromU16_code code

/-- A payload that is within the bounds of its tag is read exactly as the message it was written for. -/
theorem decodePayloadChecked_ok {tag : TransferTag} {payload : Bytes}
    (hlen : tag.allows payload.length = true) :
    decodePayloadChecked tag payload = .ok m ↔
      tag = tagOf m ∧ FieldsWithin m ∧ payload = payloadBytes m := by
  cases tag with
  | uploadOpen =>
    simp only [decodePayloadChecked, bind_eq_ok_iff, Prod.exists, takeStringFieldChecked_ok, takeU64_ok,
      requireEmpty_ok]
    constructor
    · rintro ⟨destination, _, ⟨hdestination, rfl⟩, fileName, _, ⟨hname, rfl⟩, size, _, rfl, ⟨⟩, rfl, hm⟩
      cases hm
      refine ⟨rfl, ⟨hdestination, hname⟩, ?_⟩
      rw [List.append_nil]
      rfl
    · rintro ⟨htag, hfields, rfl⟩
      cases m with
      | uploadOpen destination fileName size =>
        refine ⟨destination, _, ⟨hfields.1, rfl⟩, fileName, _, ⟨hfields.2, rfl⟩, size, [], ?_, (), rfl, rfl⟩
        rw [List.append_nil]
      | _ => cases htag
  | downloadOpen =>
    simp only [decodePayloadChecked, bind_eq_ok_iff, Prod.exists, takeStringFieldChecked_ok,
      requireEmpty_ok]
    constructor
    · rintro ⟨source, _, ⟨hsource, rfl⟩, ⟨⟩, rfl, hm⟩
      cases hm
      rw [List.append_nil] at hlen ⊢
      refine ⟨rfl, ⟨hsource.length_le, fun _ hnil => ?_, hsource.printable⟩, rfl⟩
      -- an empty path has a payload of two bytes
      rw [hnil] at hlen
      cases hlen
    · rintro ⟨htag, hfields, rfl⟩
      cases m with
      | downloadOpen source =>
        refine ⟨source, [], ⟨⟨hfields.length_le, ?_, hfields.printable⟩, ?_⟩, (), rfl, rfl⟩
        · rintro ⟨⟩
        · rw [List.append_nil]
          rfl
      | _ => cases htag
  | downloadOffer =>
    simp only [decodePayloadChecked, bind_eq_ok_iff, Prod.exists, takeStringFieldChecked_ok, takeU64_ok,
      requireEmpty_ok]
    constructor
    · rintro ⟨fileName, _, ⟨hname, rfl⟩, size, _, rfl, ⟨⟩, rfl, hm⟩
      cases hm
      have hpayload : beBytes 2 (utf8 fileName).length ++ utf8 fileName ++ (Codec.u64.enc size ++ []) =
          payloadBytes (.downloadOffer fileName size) := by
        rw [List.append_nil]
        rfl
      rw [hpayload] at hlen ⊢
      -- the payload leaves 1 to 1024 bytes for the name
      have hbounds : 11 ≤ 2 + (utf8 fileName).length + 8 ∧
          2 + (utf8 fileName).length + 8 ≤ 2 + maxFileNameLen + 8 := by
        have hsize : (payloadBytes (.downloadOffer fileName size)).length =
            2 + (utf8 fileName).length + 8 := by
          rw [payloadBytes, List.length_append, length_fieldBytes, Codec.u64.enc_length]
          rfl
        rw [hsize] at hlen
        exact of_decide_eq_true hlen
      refine ⟨rfl, ⟨by omega, fun _ hnil => ?_, hname.printable⟩, rfl⟩
      rw [hnil] at hbounds
      exact absurd hbounds.1 (by decide)
    · rintro ⟨htag, hfields, rfl⟩
      cases m with
      | downloadOffer fileName size =>
        refine ⟨fileName, _, ⟨⟨?_, ?_, hfields.printable⟩, rfl⟩, size, [], ?_, (), rfl, rfl⟩
        · exact hfields.length_le.trans (by decide)
        · rintro ⟨⟩
        · rw [List.append_nil]
      | _ => cases htag
  | finish =>
    simp only [decodePayloadChecked, bind_eq_ok_iff, Prod.exists, takeU64_ok]
    constructor
    · rintro ⟨size, rest, rfl, hdigest⟩
      split at hdigest
      case h_1 => cases hdigest
      case h_2 digest hdec =>
        cases hdigest
        rw [← (Codec.bytes 32).enc_of_dec hdec]
        exact ⟨rfl, trivial, rfl⟩
    · rintro ⟨htag, -, rfl⟩
      cases m with
      | finish size digest =>
        refine ⟨size, digest.1, rfl, ?_⟩
        rw [show (Codec.bytes 32).dec digest.1 = some digest from (Codec.bytes 32).dec_enc trivial]
        rfl
      | _ => cases htag
  | error =>
    rw [decodePayloadChecked]
    constructor
    · intro h
      split at h
      case h_1 => cases h
      case h_2 value hvalue =>
        split at h
        case h_1 => cases h
        case h_2 code hcode =>
          cases h
          refine ⟨rfl, trivial, ?_⟩
          rw [payloadBytes, fromU16_eq_some.1 hcode, Codec.u16.enc_of_dec hvalue]
    · rintro ⟨htag, -, rfl⟩
      cases m with
      | error code =>
        rw [show Codec.u16.dec (payloadBytes (.error code)) = some code.code from
          Codec.u16.dec_enc trivial]
        dsimp only
        rw [FileTransferErrorCode.fromU16_code]
      | _ => cases htag
  | data =>
    constructor
    · intro h
      change Except.ok _ = _ at h
      cases h
      exact ⟨rfl, trivial, rfl⟩
    · rintro ⟨htag, -, rfl⟩
      cases m with
      | data bytes => rfl
      | _ => cases htag
  | ready | committed | cancel =>
    have hnil : payload = [] := List.length_eq_zero_iff.1 (eq_of_beq hlen)
    constructor
    · intro h
      change Except.ok _ = _ at h
      cases h
      exact ⟨rfl, trivial, hnil⟩
    · rintro ⟨htag, -, -⟩
      cases m <;> first | rfl | cases htag

/-! ## Frames -/

/-- The payload of a control message whose fields keep their limits is within the bounds of its tag. -/
theorem allows_payloadBytes (hdata : tagOf m ≠ .data) (h : FieldsWithin m) :
    (tagOf m).allows (payloadBytes m).length = true := by
  have hword : ∀ size, (Codec.u64.enc size).length = 8 := Codec.u64.enc_length
  cases m with
  | uploadOpen destination fileName size =>
    have hdestination := h.1.length_le
    have hname := h.2.length_le
    have hpos := List.length_pos_of_ne_nil (h.2.nonempty rfl)
    refine decide_eq_true ?_
    simp only [payloadBytes, List.length_append, length_fieldBytes, hword, uploadOpenMaxLen]
    omega
  | downloadOpen source =>
    have hpos := List.length_pos_of_ne_nil (h.nonempty rfl)
    have hsource := h.length_le
    refine decide_eq_true ?_
    simp only [payloadBytes, length_fieldBytes, downloadOpenMaxLen]
    omega
  | downloadOffer fileName size =>
    have hpos := List.length_pos_of_ne_nil (h.nonempty rfl)
    have hname := h.length_le
    refine decide_eq_true ?_
    simp only [payloadBytes, List.length_append, length_fieldBytes, hword, downloadOfferMaxLen]
    omega
  | data bytes => exact absurd rfl hdata
  | finish size digest =>
    simp only [payloadBytes, List.length_append, hword, digest.2]
    rfl
  | ready | committed | cancel => rfl
  | error code => rfl

/-- The frame of a message. -/
def frameBytes (m : FileTransferMessage) : Bytes :=
  encodeFrameHeader (tagOf m) (payloadBytes m).length ++ payloadBytes m

theorem encode_ok {frame : Bytes} :
    m.encode = .ok frame ↔ tagOf m ≠ .data ∧ FieldsWithin m ∧ frame = frameBytes m := by
  rw [FileTransferMessage.encode, bind_eq_ok_iff]
  constructor
  · rintro ⟨payload, hpayload, hframe⟩
    obtain ⟨hdata, hfields, rfl⟩ := controlPayload_ok.1 hpayload
    exact ⟨hdata, hfields, (Except.ok.inj hframe).symm⟩
  · rintro ⟨hdata, hfields, rfl⟩
    exact ⟨_, controlPayload_ok.2 ⟨hdata, hfields, rfl⟩, rfl⟩

theorem fromByte_eq_some {b : UInt8} {tag : TransferTag} :
    TransferTag.fromByte b = some tag ↔ tag.code = b := by
  constructor
  · intro h
    unfold TransferTag.fromByte at h
    split_ifs at h <;> cases h <;> subst_vars <;> rfl
  · rintro rfl
    exact TransferTag.fromByte_code tag

/-- The five bytes of a header. -/
theorem decodeFrameHeader_ok {bytes : Bytes} {tag : TransferTag} {len : Nat} :
    decodeFrameHeader bytes = .ok (tag, len) ↔ len < 256 ^ 4 ∧ bytes = encodeFrameHeader tag len := by
  unfold decodeFrameHeader
  constructor
  · intro h
    by_cases hlen : bytes.length ≠ frameHeaderLen
    · rw [if_pos hlen] at h
      cases h
    · rw [if_neg hlen] at h
      have hfive : bytes.length = 4 + 1 := not_not.1 hlen
      obtain ⟨b, rest, rfl⟩ := List.exists_cons_of_length_eq_add_one hfive
      have hfour : rest.length = 4 := Nat.succ.inj hfive
      rw [List.headD_cons, List.drop_one, List.tail_cons] at h
      dsimp only at h
      split at h
      case h_1 => cases h
      case h_2 t htag =>
        cases h
        refine ⟨?_, ?_⟩
        · have hlt := beNat_lt rest
          rwa [hfour] at hlt
        · rw [encodeFrameHeader, fromByte_eq_some.1 htag, ← hfour, beBytes_beNat]
  · rintro ⟨hlt, rfl⟩
    have hlen : (encodeFrameHeader tag len).length = frameHeaderLen := by
      rw [encodeFrameHeader, List.length_cons, length_beBytes]
      rfl
    rw [if_neg (not_not.2 hlen)]
    dsimp only [encodeFrameHeader, List.headD_cons]
    rw [List.drop_one, List.tail_cons]
    rw [TransferTag.fromByte_code, beNat_beBytes_of_lt hlt]

theorem validatePayloadLen_ok {tag : TransferTag} {len : Nat} {u : Unit} :
    validatePayloadLen tag len = .ok u ↔ tag.allows len = true := by
  unfold validatePayloadLen
  split
  case isTrue h => exact ⟨fun _ => h, fun _ => rfl⟩
  case isFalse h => exact ⟨fun h' => (by cases h'), fun h' => absurd h' h⟩

/-- A frame is accepted exactly if it is the frame of a message whose fields keep their limits and whose
payload has a length that its tag allows. -/
theorem decodeFrame_ok {frame : Bytes} :
    decodeFrame frame = .ok m ↔
      FieldsWithin m ∧ (tagOf m).allows (payloadBytes m).length = true ∧ frame = frameBytes m := by
  unfold decodeFrame
  constructor
  · intro h
    by_cases hshort : frame.length < frameHeaderLen
    · rw [if_pos hshort] at h
      cases h
    · rw [if_neg hshort, bind_eq_ok_iff] at h
      obtain ⟨⟨tag, len⟩, hheader, h⟩ := h
      obtain ⟨⟨⟩, hvalid, h⟩ := bind_eq_ok_iff.1 h
      have hallows := validatePayloadLen_ok.1 hvalid
      dsimp only at h
      by_cases hless : frame.length < frameHeaderLen + len
      · rw [if_pos hless] at h
        cases h
      · rw [if_neg hless] at h
        by_cases hmore : frameHeaderLen + len < frame.length
        · rw [if_pos hmore] at h
          cases h
        · rw [if_neg hmore] at h
          have hpayload : (frame.drop frameHeaderLen).length = len := by
            rw [List.length_drop]
            omega
          rw [← hpayload] at hallows
          obtain ⟨rfl, hfields, hbytes⟩ := (decodePayloadChecked_ok hallows).1 h
          rw [hbytes] at hallows
          refine ⟨hfields, hallows, ?_⟩
          have hframe := List.take_append_drop frameHeaderLen frame
          rw [(decodeFrameHeader_ok.1 hheader).2, ← hpayload, hbytes] at hframe
          exact hframe.symm
  · rintro ⟨hfields, hallows, rfl⟩
    have hheader : (encodeFrameHeader (tagOf m) (payloadBytes m).length).length = frameHeaderLen := by
      rw [encodeFrameHeader, List.length_cons, length_beBytes]
      rfl
    have htake : (frameBytes m).take frameHeaderLen =
        encodeFrameHeader (tagOf m) (payloadBytes m).length := List.take_left' hheader
    have hdrop : (frameBytes m).drop frameHeaderLen = payloadBytes m := List.drop_left' hheader
    have hlen : (frameBytes m).length = frameHeaderLen + (payloadBytes m).length := by
      rw [frameBytes, List.length_append, hheader]
    rw [if_neg (by omega), htake, hdrop,
      decodeFrameHeader_ok.2 ⟨TransferTag.lt_of_allows hallows, rfl⟩]
    change (validatePayloadLen (tagOf m) (payloadBytes m).length >>= fun _ => _) = _
    rw [(validatePayloadLen_ok (u := ())).2 hallows, hlen]
    change (if _ then _ else _) = _
    rw [if_neg (Nat.lt_irrefl _)]
    change (if _ then _ else _) = _
    rw [if_neg (Nat.lt_irrefl _)]
    exact (decodePayloadChecked_ok hallows).2 ⟨rfl, hfields, rfl⟩

/-- The codec of file transfer frames. -/
theorem frame_codec :
    (∀ (m : FileTransferMessage) (frame : Bytes), m.encode = .ok frame → decodeFrame frame = .ok m) ∧
      (∀ (frame : Bytes) (m : FileTransferMessage), decodeFrame frame = .ok m → tagOf m ≠ .data →
        m.encode = .ok frame) ∧
      ∀ (frame : Bytes) (m : FileTransferMessage), decodeFrame frame = .ok m → FieldsWithin m := by
  refine ⟨fun m frame h => ?_, fun frame m h hdata => ?_, fun frame m h => ?_⟩
  · obtain ⟨hdata, hfields, rfl⟩ := encode_ok.1 h
    exact decodeFrame_ok.2 ⟨hfields, allows_payloadBytes hdata hfields, rfl⟩
  · obtain ⟨hfields, -, rfl⟩ := decodeFrame_ok.1 h
    exact encode_ok.2 ⟨hdata, hfields, rfl⟩
  · exact (decodeFrame_ok.1 h).1

/-- The offer of a file of seven bytes under a name with a character of two bytes. -/
theorem frame_codec_offer :
    ∃ frame, (FileTransferMessage.downloadOffer "é" 7).encode = .ok frame ∧
      decodeFrame frame = .ok (.downloadOffer "é" 7) ∧ FieldsWithin (.downloadOffer "é" 7) := by
  have hencode : (FileTransferMessage.downloadOffer "é" 7).encode =
      .ok [0x03, 0, 0, 0, 12, 0, 2, 0xc3, 0xa9, 0, 0, 0, 0, 0, 0, 0, 7] := by decide +kernel
  have hdecode := frame_codec.1 _ _ hencode
  exact ⟨_, hencode, hdecode, frame_codec.2.2 _ _ hdecode⟩

end Yonder.Wire
