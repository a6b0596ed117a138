import Yonder.Lib.Codec
import Yonder.Wire.FileTransfer

/-!
# Frames of a file transfer

A frame is a tag, the length of the payload and the payload. `encodeFrame` gives the bytes of a
message that is within the bounds of the format, and `readFrame` reads one message off the front of
what has arrived. `readFrame_encodeFrame`: it reads back exactly the message that was written, and
`readFrame_short`: of less than a whole frame it reads nothing yet.
-/

namespace Yonder.Wire

open Lib

def maxPathLen : Nat := 4096
def maxFileNameLen : Nat := 1024
def minDataLen : Nat := 1
def maxDataLen : Nat := 65536
def finishLen : Nat := 40
def frameHeaderLen : Nat := 5
def uploadOpenMaxLen : Nat := 2 + maxPathLen + 2 + maxFileNameLen + 8
def downloadOpenMaxLen : Nat := 2 + maxPathLen
def downloadOfferMaxLen : Nat := 2 + maxFileNameLen + 8

inductive TransferTag where
  | uploadOpen
  | downloadOpen
  | downloadOffer
  | ready
  | data
  | finish
  | committed
  | cancel
  | error
deriving DecidableEq, Repr

namespace TransferTag

def code : TransferTag → UInt8
  | uploadOpen => 0x01
  | downloadOpen => 0x02
  | downloadOffer => 0x03
  | ready => 0x04
  | data => 0x05
  | finish => 0x06
  | committed => 0x07
  | cancel => 0x08
  | error => 0x09

def fromByte (b : UInt8) : Option TransferTag :=
  if b = 0x01 then some uploadOpen
  else if b = 0x02 then some downloadOpen
  else if b = 0x03 then some downloadOffer
  else if b = 0x04 then some ready
  else if b = 0x05 then some data
  else if b = 0x06 then some finish
  else if b = 0x07 then some committed
  else if b = 0x08 then some cancel
  else if b = 0x09 then some error
  else none

theorem fromByte_code (t : TransferTag) : fromByte t.code = some t := by
  cases t <;> rfl

/-- The bounds of `validate_payload_len`. -/
def allows : TransferTag → Nat → Bool
  | uploadOpen, len => decide (13 ≤ len ∧ len ≤ uploadOpenMaxLen)
  | downloadOpen, len => decide (3 ≤ len ∧ len ≤ downloadOpenMaxLen)
  | downloadOffer, len => decide (11 ≤ len ∧ len ≤ downloadOfferMaxLen)
  | ready, len => len == 0
  | data, len => decide (minDataLen ≤ len ∧ len ≤ maxDataLen)
  | finish, len => len == finishLen
  | committed, len => len == 0
  | cancel, len => len == 0
  | error, len => len == 2

theorem lt_of_allows {t : TransferTag} {len : Nat} (h : t.allows len = true) : len < 256 ^ 4 := by
  have hmax : len ≤ maxDataLen := by
    cases t with
    | uploadOpen | downloadOpen | downloadOffer => exact (of_decide_eq_true h).2.trans (by decide)
    | data => exact (of_decide_eq_true h).2
    | ready | finish | committed | cancel | error =>
      rw [eq_of_beq h]
      decide
  exact lt_of_le_of_lt hmax (by decide)

end TransferTag

namespace FileTransferErrorCode

def code : FileTransferErrorCode → UInt16
  | busy => 1
  | invalidRequest => 2
  | invalidPathEncoding => 3
  | invalidFileName => 4
  | pathTooLong => 5
  | sourceNotFound => 6
  | sourceNotRegularFile => 7
  | destinationExists => 8
  | destinationParentNotFound => 9
  | destinationNotDirectory => 10
  | permissionDenied => 11
  | noSpace => 12
  | fileTooLargeForPlatform => 13
  | readFailed => 14
  | writeFailed => 15
  | sizeMismatch => 16
  | digestMismatch => 17
  | sourceChanged => 18
  | commitFailed => 19
  | cancelled => 20
  | sessionClosing => 21
  | unsupported => 22

/-- The codes in the order of their numbers. -/
def all : List FileTransferErrorCode :=
  [busy, invalidRequest, invalidPathEncoding, invalidFileName, pathTooLong, sourceNotFound,
    sourceNotRegularFile, destinationExists, destinationParentNotFound, destinationNotDirectory,
    permissionDenied, noSpace, fileTooLargeForPlatform, readFailed, writeFailed, sizeMismatch,
    digestMismatch, sourceChanged, commitFailed, cancelled, sessionClosing, unsupported]

/-- `from_u16`: the code with the number. -/
def fromU16 (value : UInt16) : Option FileTransferErrorCode :=
  all.find? fun code => code.code == value

theorem fromU16_code (c : FileTransferErrorCode) : fromU16 c.code = some c := by
  cases c <;> rfl

end FileTransferErrorCode

/-! ## Fields -/

/-- A control character: C0, DEL or C1. -/
def isControl (c : Char) : Bool :=
  c.toNat ≤ 0x1f || c.toNat == 0x7f || (0x80 ≤ c.toNat && c.toNat ≤ 0x9f)

def validateProtocolPath (bytes : Bytes) : Bool :=
  decide (bytes.length ≤ maxPathLen) &&
    match ofUtf8 bytes with
    | some text => text.toList.all fun c => !isControl c
    | none => false

inductive ProtocolField where
  | path
  | fileName
deriving DecidableEq, Repr

def ProtocolField.maxLen : ProtocolField → Nat
  | path => maxPathLen
  | fileName => maxFileNameLen

/-- `write_field`. -/
def writeField (value : String) (field : ProtocolField) (allowEmpty : Bool) : Option Bytes :=
  let bytes := utf8 value
  if (allowEmpty || bytes != []) && decide (bytes.length ≤ field.maxLen) &&
      validateProtocolPath bytes then
    some (beBytes 2 bytes.length ++ bytes)
  else none

/-- `take_string_field`: the field that is not a path must not be empty and has its own bound. -/
def takeStringField (input : Bytes) (field : ProtocolField) : Option (String × Bytes) :=
  let len := beNat (input.take 2)
  let bytes := (input.drop 2).take len
  if decide (2 + len ≤ input.length) && validateProtocolPath bytes &&
      (field == .path || bytes != [] && decide (bytes.length ≤ maxFileNameLen)) then
    (ofUtf8 bytes).map fun text => (text, input.drop (2 + len))
  else none

/-! ## Payloads -/

def tagOf : FileTransferMessage → TransferTag
  | .uploadOpen .. => .uploadOpen
  | .downloadOpen _ => .downloadOpen
  | .downloadOffer .. => .downloadOffer
  | .ready => .ready
  | .data _ => .data
  | .finish .. => .finish
  | .committed => .committed
  | .cancel => .cancel
  | .error _ => .error

def encodePayload : FileTransferMessage → Option Bytes
  | .uploadOpen destination fileName declaredSize => do
      let destination ← writeField destination .path true
      let fileName ← writeField fileName .fileName false
      return destination ++ (fileName ++ Codec.u64.enc declaredSize)
  | .downloadOpen source => writeField source .path false
  | .downloadOffer fileName declaredSize => do
      let fileName ← writeField fileName .fileName false
      return fileName ++ Codec.u64.enc declaredSize
  | .ready => some []
  | .data bytes => some bytes
  | .finish actualSize digest => some (Codec.u64.enc actualSize ++ digest.1)
  | .committed => some []
  | .cancel => some []
  | .error code => some (Codec.u16.enc code.code)

/-- `decode_payload`. -/
def decodePayload : TransferTag → Bytes → Option FileTransferMessage
  | .uploadOpen, payload => do
      let (destination, rest) ← takeStringField payload .path
      let (fileName, rest) ← takeStringField rest .fileName
      let declaredSize ← Codec.u64.dec rest
      return .uploadOpen destination fileName declaredSize
  | .downloadOpen, payload => do
      let (source, rest) ← takeStringField payload .path
      if rest = [] then some (.downloadOpen source) else none
  | .downloadOffer, payload => do
      let (fileName, rest) ← takeStringField payload .path
      let declaredSize ← Codec.u64.dec rest
      return .downloadOffer fileName declaredSize
  | .ready, _ => some .ready
  | .data, payload => some (.data payload)
  | .finish, payload =>
    ((Codec.u64.prod (Codec.bytes 32)).dec payload).map fun p => .finish p.1 p.2
  | .committed, _ => some .committed
  | .cancel, _ => some .cancel
  | .error, payload => do
      let value ← Codec.u16.dec payload
      let code ← FileTransferErrorCode.fromU16 value
      return .error code

/-! ## Frames -/

/-- `encode_frame_header`. -/
def encodeFrameHeader (tag : TransferTag) (payloadLen : Nat) : Bytes :=
  tag.code :: beBytes 4 payloadLen

/-- The frame of a message: `encode`, and the header and the block of a `Data`. -/
def encodeFrame (m : FileTransferMessage) : Option Bytes :=
  (encodePayload m).bind fun payload =>
    if payload.length < 256 ^ 4 then some (encodeFrameHeader (tagOf m) payload.length ++ payload)
    else none

/-- What is read off the front of the bytes that have arrived. -/
inductive FrameRead where
  | message (m : FileTransferMessage) (rest : Bytes)
  | more
  | protocol
deriving DecidableEq

/-- `read_frame_inner` on the bytes that have arrived; `sink` says whether a `Data` is expected. -/
def readFrame (sink : Bool) (bytes : Bytes) : FrameRead :=
  match bytes with
  | b₀ :: b₁ :: b₂ :: b₃ :: b₄ :: rest =>
    let len := beNat [b₁, b₂, b₃, b₄]
    match TransferTag.fromByte b₀ with
    | none => .protocol
    | some tag =>
      if !tag.allows len || (tag == .data && !sink) then .protocol
      else if rest.length < len then .more
      else
        match decodePayload tag (rest.take len) with
        | some m => .message m (rest.drop len)
        | none => .protocol
  | _ => .more

/-! ## Round trips -/

theorem beNat_beBytes_of_lt {w n : Nat} (h : n < 256 ^ w) : beNat (beBytes w n) = n := by
  rw [beNat_beBytes, Nat.mod_eq_of_lt h]

theorem validateProtocolPath_length {bytes : Bytes} (h : validateProtocolPath bytes = true) :
    bytes.length ≤ maxPathLen := by
  simp only [validateProtocolPath, Bool.and_eq_true, decide_eq_true_eq] at h
  exact h.1

variable {allowEmpty : Bool} {m : FileTransferMessage} {frame : Bytes}

theorem writeField_eq_some {value : String} {field : ProtocolField} {bytes : Bytes}
    (h : writeField value field allowEmpty = some bytes) :
    bytes = beBytes 2 (utf8 value).length ++ utf8 value ∧
      (allowEmpty = true ∨ utf8 value ≠ []) ∧ (utf8 value).length ≤ field.maxLen ∧
      validateProtocolPath (utf8 value) = true := by
  simp only [writeField, Option.ite_none_right_eq_some, Bool.and_eq_true, Bool.or_eq_true,
    bne_iff_ne, decide_eq_true_eq, Option.some.injEq] at h
  obtain ⟨⟨⟨hempty, hlen⟩, hvalid⟩, rfl⟩ := h
  exact ⟨rfl, hempty, hlen, hvalid⟩

/-- A field that was written is taken off the front. -/
theorem takeStringField_writeField {value : String} {written field : ProtocolField} {bytes : Bytes}
    (h : writeField value written allowEmpty = some bytes)
    (hfield : field = .path ∨ written = .fileName ∧ allowEmpty = false) (rest : Bytes) :
    takeStringField (bytes ++ rest) field = some (value, rest) := by
  obtain ⟨rfl, hempty, hlen, hvalid⟩ := writeField_eq_some h
  have hpath := validateProtocolPath_length hvalid
  have hpre : beNat (((beBytes 2 (utf8 value).length ++ utf8 value) ++ rest).take 2) =
      (utf8 value).length := by
    rw [List.append_assoc, List.take_left' (length_beBytes 2 _), beNat_beBytes_of_lt]
    simp only [maxPathLen] at hpath
    omega
  have hdrop : ((beBytes 2 (utf8 value).length ++ utf8 value) ++ rest).drop 2 =
      utf8 value ++ rest := by
    rw [List.append_assoc, List.drop_left' (length_beBytes 2 _)]
  have hrest : ((beBytes 2 (utf8 value).length ++ utf8 value) ++ rest).drop
      (2 + (utf8 value).length) = rest := by
    rw [← List.drop_drop, hdrop, List.drop_left]
  have hsize : 2 + (utf8 value).length ≤
      ((beBytes 2 (utf8 value).length ++ utf8 value) ++ rest).length := by
    simp only [List.length_append, length_beBytes]
    omega
  have hown : (field == .path || utf8 value != [] && decide ((utf8 value).length ≤ maxFileNameLen))
      = true := by
    rcases hfield with rfl | ⟨rfl, rfl⟩
    · rfl
    · have hne : utf8 value ≠ [] := hempty.resolve_left Bool.false_ne_true
      have hname : (utf8 value).length ≤ maxFileNameLen := hlen
      simp [hne, hname]
  unfold takeStringField
  dsimp only
  rw [hpre, hdrop, List.take_left, hrest, decide_eq_true hsize, hvalid, hown,
    (ofUtf8_eq_some _ _).2 rfl]
  rfl

theorem length_writeField {value : String} {field : ProtocolField} {bytes : Bytes}
    (h : writeField value field allowEmpty = some bytes) :
    2 ≤ bytes.length ∧ bytes.length ≤ 2 + field.maxLen ∧ (allowEmpty = false → 3 ≤ bytes.length) := by
  obtain ⟨rfl, hempty, hlen, -⟩ := writeField_eq_some h
  rw [List.length_append, length_beBytes]
  refine ⟨by omega, by omega, fun hno => ?_⟩
  have hne : utf8 value ≠ [] := hempty.resolve_left fun hyes => Bool.false_ne_true (hno.symm.trans hyes)
  have := List.length_pos_of_ne_nil hne
  omega

/-- The messages with a frame that can be read back: those with a payload, and the blocks within the
bounds of a `Data`. -/
def Framed (m : FileTransferMessage) : Prop :=
  ∀ bytes, m = .data bytes → minDataLen ≤ bytes.length ∧ bytes.length ≤ maxDataLen

theorem allows_encodePayload {payload : Bytes} (hm : Framed m) (h : encodePayload m = some payload) :
    (tagOf m).allows payload.length = true := by
  cases m with
  | uploadOpen destination fileName declaredSize =>
    simp only [encodePayload, Option.bind_eq_bind, Option.bind_eq_some_iff, Option.pure_def,
      Option.some.injEq] at h
    obtain ⟨destination', hdestination, fileName', hname, rfl⟩ := h
    have hd := length_writeField hdestination
    have hn := length_writeField hname
    have hthree := hn.2.2 rfl
    simp only [ProtocolField.maxLen] at hd hn
    have hwidth : (Codec.u64.enc declaredSize).length = 8 := Codec.u64.enc_length _
    refine decide_eq_true ?_
    simp only [List.length_append, hwidth, uploadOpenMaxLen]
    omega
  | downloadOpen source =>
    have hs := length_writeField h
    have hthree := hs.2.2 rfl
    exact decide_eq_true ⟨hthree, hs.2.1⟩
  | downloadOffer fileName declaredSize =>
    simp only [encodePayload, Option.bind_eq_bind, Option.bind_eq_some_iff, Option.pure_def,
      Option.some.injEq] at h
    obtain ⟨fileName', hname, rfl⟩ := h
    have hn := length_writeField hname
    have hthree := hn.2.2 rfl
    simp only [ProtocolField.maxLen] at hn
    have hwidth : (Codec.u64.enc declaredSize).length = 8 := Codec.u64.enc_length _
    refine decide_eq_true ?_
    simp only [List.length_append, hwidth, downloadOfferMaxLen]
    omega
  | data =>
    cases h
    exact decide_eq_true (hm payload rfl)
  | finish actualSize digest =>
    cases h
    simp only [tagOf, TransferTag.allows, List.length_append, Codec.u64.enc_length, digest.2,
      beq_iff_eq]
    rfl
  | ready | committed | cancel =>
    cases h
    rfl
  | error code =>
    cases h
    rfl

theorem decodePayload_encodePayload {payload : Bytes} (h : encodePayload m = some payload) :
    decodePayload (tagOf m) payload = some m := by
  cases m with
  | uploadOpen destination fileName declaredSize =>
    simp only [encodePayload, Option.bind_eq_bind, Option.bind_eq_some_iff, Option.pure_def,
      Option.some.injEq] at h
    obtain ⟨destination', hdestination, fileName', hname, rfl⟩ := h
    simp only [tagOf, decodePayload, takeStringField_writeField hdestination (.inl rfl),
      takeStringField_writeField hname (.inr ⟨rfl, rfl⟩),
      Codec.u64.dec_enc (a := declaredSize) trivial, Option.bind_eq_bind, Option.bind_some,
      Option.pure_def]
  | downloadOpen source =>
    have htake : takeStringField (payload ++ []) .path = some (source, []) :=
      takeStringField_writeField h (.inl rfl) []
    rw [List.append_nil] at htake
    simp only [tagOf, decodePayload, htake, Option.bind_eq_bind, Option.bind_some, if_true]
  | downloadOffer fileName declaredSize =>
    simp only [encodePayload, Option.bind_eq_bind, Option.bind_eq_some_iff, Option.pure_def,
      Option.some.injEq] at h
    obtain ⟨fileName', hname, rfl⟩ := h
    simp only [tagOf, decodePayload, takeStringField_writeField hname (.inl rfl),
      Codec.u64.dec_enc (a := declaredSize) trivial, Option.bind_eq_bind, Option.bind_some,
      Option.pure_def]
  | finish actualSize digest =>
    cases h
    have hdec := (Codec.u64.prod (Codec.bytes 32)).dec_enc (a := (actualSize, digest))
      ⟨trivial, trivial⟩
    exact congrArg (Option.map fun p => FileTransferMessage.finish p.1 p.2) hdec
  | ready | committed | cancel | data =>
    cases h
    rfl
  | error code =>
    cases h
    simp only [tagOf, decodePayload, Codec.u16.dec_enc (a := code.code) trivial,
      FileTransferErrorCode.fromU16_code, Option.bind_eq_bind, Option.bind_some, Option.pure_def]

/-- What a frame is made of. -/
theorem encodeFrame_eq_some (h : encodeFrame m = some frame) :
    ∃ payload, encodePayload m = some payload ∧
      frame = (tagOf m).code :: (beBytes 4 payload.length ++ payload) := by
  simp only [encodeFrame, Option.bind_eq_some_iff, Option.ite_none_right_eq_some,
    Option.some.injEq] at h
  obtain ⟨payload, hpayload, -, rfl⟩ := h
  exact ⟨payload, hpayload, rfl⟩

/-- The four bytes of a length. -/
theorem beBytes_four (n : Nat) : ∃ b₁ b₂ b₃ b₄, beBytes 4 n = [b₁, b₂, b₃, b₄] := ⟨_, _, _, _, rfl⟩

/-- A message expected by the reader. -/
def Expected (sink : Bool) (m : FileTransferMessage) : Prop := tagOf m = .data → sink = true

/-- A whole frame is read as the message it was written for, and no further. -/
theorem readFrame_encodeFrame {sink : Bool} (hm : Framed m) (hsink : Expected sink m)
    (h : encodeFrame m = some frame) (rest : Bytes) :
    readFrame sink (frame ++ rest) = .message m rest := by
  obtain ⟨payload, hpayload, rfl⟩ := encodeFrame_eq_some h
  have hallows := allows_encodePayload hm hpayload
  have hlen := beNat_beBytes_of_lt (TransferTag.lt_of_allows hallows)
  obtain ⟨b₁, b₂, b₃, b₄, hfour⟩ := beBytes_four payload.length
  rw [hfour] at hlen ⊢
  have hdata : (tagOf m == TransferTag.data && !sink) = false := by
    by_cases htag : tagOf m = .data
    · simp [hsink htag]
    · simp [htag]
  simp only [List.cons_append, List.nil_append, readFrame, hlen, TransferTag.fromByte_code,
    hallows, hdata, Bool.not_true, Bool.or_self, Bool.false_eq_true, if_false,
    List.length_append, List.take_left, List.drop_left, decodePayload_encodePayload hpayload]
  rw [if_neg (by omega)]

/-- Less than a whole frame gives nothing yet. -/
theorem readFrame_short {short : Bytes} {sink : Bool} (hm : Framed m) (hsink : Expected sink m)
    (h : encodeFrame m = some frame) (hshort : short <+: frame) (hne : short ≠ frame) :
    readFrame sink short = .more := by
  obtain ⟨payload, hpayload, rfl⟩ := encodeFrame_eq_some h
  have hallows := allows_encodePayload hm hpayload
  have hlen := beNat_beBytes_of_lt (TransferTag.lt_of_allows hallows)
  obtain ⟨b₁, b₂, b₃, b₄, hfour⟩ := beBytes_four payload.length
  rw [hfour] at hlen hshort hne
  have hdata : (tagOf m == TransferTag.data && !sink) = false := by
    by_cases htag : tagOf m = .data
    · simp [hsink htag]
    · simp [htag]
  match short with
  | [] => rfl
  | [_] => rfl
  | [_, _] => rfl
  | [_, _, _] => rfl
  | [_, _, _, _] => rfl
  | c₀ :: c₁ :: c₂ :: c₃ :: c₄ :: part =>
    simp only [List.cons_append, List.nil_append, List.cons_prefix_cons] at hshort
    obtain ⟨rfl, rfl, rfl, rfl, rfl, hpart⟩ := hshort
    have hlt : part.length < payload.length := by
      refine lt_of_le_of_ne hpart.length_le fun heq => hne ?_
      rw [hpart.eq_of_length heq]
      rfl
    simp only [readFrame, hlen, TransferTag.fromByte_code, hallows, hdata, Bool.not_true,
      Bool.or_self, Bool.false_eq_true, if_false]
    rw [if_pos hlt]

end Yonder.Wire
