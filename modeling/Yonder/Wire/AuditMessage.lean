import Yonder.Lib.Fallible
import Yonder.Wire.Audit
import Yonder.Wire.Terminal

/-!
# Audit message frames

The frames of the audit substream: a tag byte, the big-endian length of the payload and the payload.
`decode_frame` checks the header, the length that belongs to the tag, the absence of trailing bytes,
and then the payload. `decodeFrame_eq_ok` says which frames it accepts: the encodings of the messages
whose format offer is not zero, each from its one encoding. `Malformed` lists the frames the format
rules out, one constructor for each reason.
-/

namespace Yonder.Wire

open Lib

/-- The fixed message tags. -/
inductive AuditTag where
  | auditHello
  | secretContribution
  | auditReady
  | checkpoint
  | checkpointAck
  | jointManifest
  | manifestSignature
  | localRecordSeal
  | ledgerCommit
  | closeNotice
  | auditError
deriving DecidableEq, Repr

namespace AuditTag

def code : AuditTag → UInt8
  | auditHello => 0x01
  | secretContribution => 0x02
  | auditReady => 0x03
  | checkpoint => 0x04
  | checkpointAck => 0x05
  | jointManifest => 0x06
  | manifestSignature => 0x07
  | localRecordSeal => 0x08
  | ledgerCommit => 0x09
  | closeNotice => 0x0A
  | auditError => 0x0B

def all : List AuditTag :=
  [auditHello, secretContribution, auditReady, checkpoint, checkpointAck, jointManifest,
    manifestSignature, localRecordSeal, ledgerCommit, closeNotice, auditError]

def fromByte (b : UInt8) : Option AuditTag := all.find? fun t => t.code == b

@[simp] theorem fromByte_code (t : AuditTag) : fromByte t.code = some t := by
  cases t <;> decide

theorem code_of_fromByte {b : UInt8} {t : AuditTag} (h : fromByte b = some t) : t.code = b := by
  simpa using List.find?_some h

theorem code_inj {t t' : AuditTag} (h : t.code = t'.code) : t = t' := by
  have hback := congrArg fromByte h
  rw [fromByte_code, fromByte_code] at hback
  exact Option.some.inj hback

/-- The fixed payload length of a tag. -/
def payloadLen : AuditTag → Nat
  | auditHello => 267
  | secretContribution => 32
  | auditReady => 130
  | checkpoint => 328
  | checkpointAck => 296
  | jointManifest => 400
  | manifestSignature => 64
  | localRecordSeal => 329
  | ledgerCommit => 233
  | closeNotice => 1
  | auditError => 2

theorem payloadLen_lt (t : AuditTag) : t.payloadLen < 256 ^ 4 := by
  cases t <;> decide

end AuditTag

variable {len : Nat} {frame : Bytes}

/-- `from_u16`. -/
def AuditErrorCode.fromU16 (value : UInt16) : Option AuditErrorCode :=
  match value.toNat with
  | 1 => some .auditIdentityMissing
  | 2 => some .auditIdentityInvalid
  | 3 => some .auditIdentityPermissions
  | 4 => some .auditLedgerInvalid
  | 5 => some .auditLedgerConflict
  | 6 => some .auditDirectoryUnavailable
  | 7 => some .auditRecordCreateFailed
  | 8 => some .auditRecordWriteFailed
  | 9 => some .auditRecordSyncFailed
  | 10 => some .auditProtocolUnsupported
  | 11 => some .auditHandshakeInvalid
  | 12 => some .auditSessionBindingMismatch
  | 13 => some .auditCheckpointMismatch
  | 14 => some .auditPeerSignatureInvalid
  | 15 => some .auditFinalManifestMismatch
  | 16 => some .auditLedgerCommitFailed
  | 17 => some .auditReplayUnsafe
  | 18 => some .auditContainerInvalid
  | _ => none

theorem AuditErrorCode.fromU16_eq_some (value : UInt16) (e : AuditErrorCode) :
    fromU16 value = some e ↔ e.code = value := by
  constructor
  · intro h
    rw [← UInt16.toNat_inj]
    unfold fromU16 at h
    split at h <;> first | (cases h; rename_i hvalue; rw [hvalue]; rfl) | cases h
  · rintro rfl
    cases e <;> rfl

/-- One decoded audit message. -/
inductive AuditMessage where
  | auditHello (message : AuditHello)
  | secretContribution (contribution : Digest32)
  | auditReady (message : AuditReady)
  | checkpoint (message : Checkpoint)
  | checkpointAck (message : CheckpointAck)
  | jointManifest (message : JointManifest)
  | manifestSignature (signature : Ed25519Signature)
  | localRecordSeal (message : LocalRecordSeal)
  | ledgerCommit (message : LedgerCommit)
  | closeNotice (reason : AuditCloseReason)
  | auditError (code : AuditErrorCode)
deriving DecidableEq

variable {m : AuditMessage}

def closeNoticeCodec : Codec AuditCloseReason :=
  Codec.tag AuditCloseReason.code AuditCloseReason.fromByte AuditCloseReason.fromByte_eq_some

def auditErrorCodec : Codec AuditErrorCode :=
  Codec.u16.partialIso AuditErrorCode.fromU16 AuditErrorCode.code AuditErrorCode.fromU16_eq_some

namespace AuditMessage

/-- `encode_frame_header`. -/
def encodeFrameHeader (tag : UInt8) (payloadLen : Nat) : Bytes := tag :: beBytes 4 payloadLen

/-- `decode_frame_header`. -/
def decodeFrameHeader (bytes : Bytes) : Except ProtocolError (UInt8 × Nat) :=
  match bytes with
  | [tag, b₀, b₁, b₂, b₃] =>
    if (AuditTag.fromByte tag).isNone then .error (.unknownTag tag)
    else .ok (tag, beNat [b₀, b₁, b₂, b₃])
  | _ => .error (.invalidLength 5 bytes.length)

/-- `validate_payload_len`. -/
def validatePayloadLen (tag : UInt8) (len : Nat) : Except ProtocolError Unit :=
  match AuditTag.fromByte tag with
  | none => .error (.unknownTag tag)
  | some t => if len = t.payloadLen then .ok () else .error (.invalidLength 0 len)

def tag : AuditMessage → AuditTag
  | auditHello _ => .auditHello
  | secretContribution _ => .secretContribution
  | auditReady _ => .auditReady
  | checkpoint _ => .checkpoint
  | checkpointAck _ => .checkpointAck
  | jointManifest _ => .jointManifest
  | manifestSignature _ => .manifestSignature
  | localRecordSeal _ => .localRecordSeal
  | ledgerCommit _ => .ledgerCommit
  | closeNotice _ => .closeNotice
  | auditError _ => .auditError

/-- The payload of a message; a manifest of another format version has none. -/
def encodePayload : AuditMessage → Option Bytes
  | auditHello m => some (AuditHello.codec.enc m)
  | secretContribution s => some s.1
  | auditReady m => some (AuditReady.codec.enc m)
  | checkpoint m => some (Checkpoint.codec.enc m)
  | checkpointAck m => some (CheckpointAck.codec.enc m)
  | jointManifest m => m.encodePayload
  | manifestSignature s => some s.1
  | localRecordSeal m => some (LocalRecordSeal.codec.enc m)
  | ledgerCommit m => some (LedgerCommit.codec.enc m)
  | closeNotice reason => some (closeNoticeCodec.enc reason)
  | auditError code => some (auditErrorCodec.enc code)

/-- `encode`. -/
def encode (m : AuditMessage) : Except ProtocolError Bytes :=
  match m.encodePayload with
  | none => .error .invalidReserved
  | some payload => .ok (encodeFrameHeader m.tag.code payload.length ++ payload)

/-- The message in a payload of its tag's length, if every field is valid. -/
def readPayload (t : AuditTag) (payload : Bytes) : Option AuditMessage :=
  match t with
  | .auditHello => (AuditHello.codec.dec payload).map auditHello
  | .secretContribution => (digestCodec.dec payload).map secretContribution
  | .auditReady => (AuditReady.codec.dec payload).map auditReady
  | .checkpoint => (Checkpoint.codec.dec payload).map checkpoint
  | .checkpointAck => (CheckpointAck.codec.dec payload).map checkpointAck
  | .jointManifest => (JointManifest.codec.dec payload).map jointManifest
  | .manifestSignature => (signatureCodec.dec payload).map manifestSignature
  | .localRecordSeal => (LocalRecordSeal.codec.dec payload).map localRecordSeal
  | .ledgerCommit => (LedgerCommit.codec.dec payload).map ledgerCommit
  | .closeNotice => (closeNoticeCodec.dec payload).map closeNotice
  | .auditError => (auditErrorCodec.dec payload).map auditError

/-- The field of a payload at an offset. -/
def field (payload : Bytes) (offset width : Nat) : Bytes := (payload.drop offset).take width

/-- The error of a payload of its tag's length: an ending of a manifest in the frozen version that is
not one is reported by its tag, everything else as a reserved field. -/
def payloadError (t : AuditTag) (payload : Bytes) : ProtocolError :=
  if t = .jointManifest ∧ field payload 0 2 = Codec.u16.enc auditFormatVersion ∧
      (endingCodec.dec (field payload 386 5)).isNone then
    .unknownTag ((payload.drop 386).headD 0)
  else .invalidReserved

/-- `decode_payload`. -/
def decodePayload (tag : UInt8) (payload : Bytes) : Except ProtocolError AuditMessage :=
  match AuditTag.fromByte tag with
  | none => .error (.unknownTag tag)
  | some t =>
    if payload.length ≠ t.payloadLen then .error (.invalidLength t.payloadLen payload.length)
    else
      match readPayload t payload with
      | none => .error (payloadError t payload)
      | some m => .ok m

/-- `decode_frame`. -/
def decodeFrame (frame : Bytes) : Except ProtocolError AuditMessage :=
  if frame.length < 5 then .error (.invalidLength 5 frame.length)
  else do
    let (tag, payloadLen) ← decodeFrameHeader (frame.take 5)
    validatePayloadLen tag payloadLen
    if frame.length < 5 + payloadLen then .error (.invalidLength (5 + payloadLen) frame.length)
    else if 5 + payloadLen < frame.length then .error .trailingBytes
    else decodePayload tag (frame.drop 5)

/-- A hello or a ready does not offer format version zero. -/
def Offers : AuditMessage → Prop
  | auditHello m => m.formatVersion ≠ 0
  | auditReady m => m.formatVersion ≠ 0
  | _ => True

/-! ## The payloads -/

theorem length_encodePayload {payload : Bytes} (h : m.encodePayload = some payload) :
    payload.length = m.tag.payloadLen := by
  cases m with
  | jointManifest m =>
    obtain ⟨-, rfl⟩ := encodePayload_eq_some.1 h
    exact JointManifest.codec.enc_length m
  | auditHello m => cases h; exact AuditHello.codec.enc_length m
  | secretContribution s => cases h; exact s.2
  | auditReady m => cases h; exact AuditReady.codec.enc_length m
  | checkpoint m => cases h; exact Checkpoint.codec.enc_length m
  | checkpointAck m => cases h; exact CheckpointAck.codec.enc_length m
  | manifestSignature s => cases h; exact s.2
  | localRecordSeal m => cases h; exact LocalRecordSeal.codec.enc_length m
  | ledgerCommit m => cases h; exact LedgerCommit.codec.enc_length m
  | closeNotice reason => cases h; exact closeNoticeCodec.enc_length reason
  | auditError code => cases h; exact auditErrorCodec.enc_length code

/-- What the decoder of one layout makes of a payload. -/
theorem map_dec_eq_some {α : Type} (c : Codec α) {mk : α → AuditMessage}
    (hmk : Function.Injective mk) {payload : Bytes} {a : α} :
    (c.dec payload).map mk = some (mk a) ↔ c.ok a ∧ c.enc a = payload := by
  rw [Option.map_eq_some_iff, ← c.dec_eq_some]
  constructor
  · rintro ⟨b, hb, heq⟩
    rwa [← hmk heq]
  · intro h
    exact ⟨a, h, rfl⟩

variable {t : AuditTag}

theorem tag_of_readPayload {payload : Bytes} (h : readPayload t payload = some m) : m.tag = t := by
  cases t <;> obtain ⟨a, -, rfl⟩ := Option.map_eq_some_iff.1 h <;> rfl

theorem readPayload_tag_eq_some (m : AuditMessage) (payload : Bytes) :
    readPayload m.tag payload = some m ↔ m.Offers ∧ m.encodePayload = some payload := by
  cases m with
  | auditHello m =>
    refine (map_dec_eq_some _ fun _ _ => auditHello.inj).trans ?_
    rw [helloCodec_ok, encodePayload, Option.some.injEq, Offers]
  | secretContribution s =>
    refine (map_dec_eq_some _ fun _ _ => secretContribution.inj).trans ?_
    rw [encodePayload, Option.some.injEq]
    rfl
  | auditReady m =>
    refine (map_dec_eq_some _ fun _ _ => auditReady.inj).trans ?_
    rw [readyCodec_ok, encodePayload, Option.some.injEq, Offers]
  | checkpoint m =>
    refine (map_dec_eq_some _ fun _ _ => checkpoint.inj).trans ?_
    rw [encodePayload, Option.some.injEq, iff_true_intro (checkpointCodec_ok m)]
    rfl
  | checkpointAck m =>
    refine (map_dec_eq_some _ fun _ _ => checkpointAck.inj).trans ?_
    rw [encodePayload, Option.some.injEq, iff_true_intro (ackCodec_ok m)]
    rfl
  | jointManifest m =>
    refine (map_dec_eq_some _ fun _ _ => jointManifest.inj).trans ?_
    rw [manifestCodec_ok, encodePayload, encodePayload_eq_some]
    exact (and_iff_right trivial).symm
  | manifestSignature s =>
    refine (map_dec_eq_some _ fun _ _ => manifestSignature.inj).trans ?_
    rw [encodePayload, Option.some.injEq]
    rfl
  | localRecordSeal m =>
    refine (map_dec_eq_some _ fun _ _ => localRecordSeal.inj).trans ?_
    rw [encodePayload, Option.some.injEq, iff_true_intro (sealCodec_ok m)]
    rfl
  | ledgerCommit m =>
    refine (map_dec_eq_some _ fun _ _ => ledgerCommit.inj).trans ?_
    rw [encodePayload, Option.some.injEq, iff_true_intro (commitCodec_ok m)]
    rfl
  | closeNotice reason =>
    refine (map_dec_eq_some _ fun _ _ => closeNotice.inj).trans ?_
    rw [encodePayload, Option.some.injEq]
    rfl
  | auditError code =>
    refine (map_dec_eq_some _ fun _ _ => auditError.inj).trans ?_
    rw [encodePayload, Option.some.injEq]
    rfl

/-- A payload decodes to a message exactly if it is the encoding of the message and the message does
not offer version zero. -/
theorem readPayload_eq_some {payload : Bytes} :
    readPayload t payload = some m ↔ m.tag = t ∧ m.Offers ∧ m.encodePayload = some payload := by
  constructor
  · intro h
    have htag := tag_of_readPayload h
    rw [← htag] at h
    exact ⟨htag, (readPayload_tag_eq_some m payload).1 h⟩
  · rintro ⟨rfl, h⟩
    exact (readPayload_tag_eq_some m payload).2 h

/-! ## The frames -/

/-- The header of a frame, as it is read. -/
theorem decodeFrameHeader_eq_ok {bytes : Bytes} {tag : UInt8} :
    decodeFrameHeader bytes = .ok (tag, len) ↔
      (AuditTag.fromByte tag).isSome ∧ len < 256 ^ 4 ∧ bytes = encodeFrameHeader tag len := by
  constructor
  · intro h
    unfold decodeFrameHeader at h
    split at h
    case h_1 tag' b₀ b₁ b₂ b₃ =>
      split at h
      · cases h
      · rename_i hsome
        cases h
        refine ⟨by simpa [Option.isSome_iff_ne_none] using hsome, beNat_lt [b₀, b₁, b₂, b₃], ?_⟩
        have hback := beBytes_beNat [b₀, b₁, b₂, b₃]
        simp only [List.length_cons, List.length_nil] at hback
        rw [encodeFrameHeader, hback]
    case h_2 => cases h
  · rintro ⟨hsome, hlen, rfl⟩
    have hfour : (beBytes 4 len).length = 4 := length_beBytes 4 len
    have hback : beNat (beBytes 4 len) = len := by
      rw [beNat_beBytes, Nat.mod_eq_of_lt hlen]
    unfold encodeFrameHeader
    generalize beBytes 4 len = digits at hfour hback
    match digits, hfour with
    | [b₀, b₁, b₂, b₃], _ =>
      rw [decodeFrameHeader, if_neg (by simpa [Option.isSome_iff_ne_none] using hsome), hback]

theorem validatePayloadLen_eq_ok {tag : UInt8} :
    validatePayloadLen tag len = .ok () ↔ ∃ t : AuditTag, t.code = tag ∧ len = t.payloadLen := by
  unfold validatePayloadLen
  constructor
  · intro h
    split at h
    · cases h
    · rename_i t ht
      split at h
      · rename_i hlen
        exact ⟨t, AuditTag.code_of_fromByte ht, hlen⟩
      · cases h
  · rintro ⟨t, rfl, rfl⟩
    rw [AuditTag.fromByte_code]
    exact if_pos rfl

theorem decodePayload_eq_ok {payload : Bytes} :
    decodePayload t.code payload = .ok m ↔ payload.length = t.payloadLen ∧
      readPayload t payload = some m := by
  unfold decodePayload
  rw [AuditTag.fromByte_code]
  dsimp only
  by_cases hlen : payload.length = t.payloadLen
  case neg => simp [hlen]
  case pos =>
    rw [if_neg (not_not.2 hlen)]
    cases readPayload t payload with
    | none => simp
    | some m' => simp [hlen]

/-- A frame is accepted exactly if it is the encoding of its message, and the message does not offer
format version zero. -/
theorem decodeFrame_eq_ok : decodeFrame frame = .ok m ↔ m.Offers ∧ m.encode = .ok frame := by
  unfold decodeFrame
  constructor
  · intro h
    split_ifs at h with hshort
    obtain ⟨⟨tag, len⟩, hheader, hrest⟩ := bind_eq_ok_iff.1 h
    obtain ⟨⟨⟩, hlen, hdecode⟩ := bind_eq_ok_iff.1 hrest
    split_ifs at hdecode with hcut htrailing
    obtain ⟨t, rfl, rfl⟩ := validatePayloadLen_eq_ok.1 hlen
    obtain ⟨hpayload, hread⟩ := decodePayload_eq_ok.1 hdecode
    obtain ⟨rfl, hoffers, henc⟩ := readPayload_eq_some.1 hread
    refine ⟨hoffers, ?_⟩
    rw [encode, henc]
    dsimp only
    rw [hpayload, ← (decodeFrameHeader_eq_ok.1 hheader).2.2, List.take_append_drop]
  · rintro ⟨hoffers, henc⟩
    unfold encode at henc
    cases hpayload : m.encodePayload with
    | none => simp [hpayload] at henc
    | some payload =>
      have hlen := length_encodePayload hpayload
      simp only [hpayload, Except.ok.injEq] at henc
      subst henc
      have hfive : (encodeFrameHeader m.tag.code payload.length).length = 5 := by
        simp [encodeFrameHeader]
      have hheader : decodeFrameHeader (encodeFrameHeader m.tag.code payload.length) =
          .ok (m.tag.code, payload.length) :=
        decodeFrameHeader_eq_ok.2 ⟨by simp, hlen ▸ m.tag.payloadLen_lt, rfl⟩
      have hread := decodePayload_eq_ok.2 ⟨hlen, readPayload_eq_some.2 ⟨rfl, hoffers, hpayload⟩⟩
      rw [List.take_left' hfive, List.drop_left' hfive, List.length_append, hfive,
        if_neg (by omega), hheader]
      refine bind_eq_ok_iff.2 ⟨_, rfl, bind_eq_ok_iff.2 ⟨(), ?_, ?_⟩⟩
      · exact validatePayloadLen_eq_ok.2 ⟨m.tag, rfl, hlen⟩
      · rw [if_neg (lt_irrefl _), if_neg (lt_irrefl _), hread]

/-! ## What the format rules out -/

/-- A payload of its tag's length with a field the format reserves: a role, result, reason, error code,
ending or flag that is not one, a format offer of zero, a manifest of another version, or an ending by
a close reason with more than one byte. -/
def Reserved : AuditTag → Bytes → Prop
  | .auditHello, payload => (∃ b, field payload 0 1 = [b] ∧ AuditRole.fromByte b = none) ∨
      field payload 169 2 = [0, 0]
  | .auditReady, payload => field payload 64 2 = [0, 0]
  | .jointManifest, payload => field payload 0 2 ≠ Codec.u16.enc auditFormatVersion ∨
      (∃ b, field payload 386 1 = [b] ∧ b ≠ 1 ∧ b ≠ 2) ∨
      field payload 386 1 = [2] ∧ (field payload 387 3 ≠ [0, 0, 0] ∨
        ∃ b, field payload 390 1 = [b] ∧ AuditCloseReason.fromByte b = none) ∨
      ∃ b, field payload 391 1 = [b] ∧ 1 < b
  | .localRecordSeal, payload => ∃ b, field payload 32 1 = [b] ∧ AuditRole.fromByte b = none
  | .ledgerCommit, payload => ∃ b, field payload 168 1 = [b] ∧ SessionResult.fromByte b = none
  | .closeNotice, payload => ∃ b, payload = [b] ∧ AuditCloseReason.fromByte b = none
  | .auditError, payload => ∃ v, payload = Codec.u16.enc v ∧ AuditErrorCode.fromU16 v = none
  | _, _ => False

/-- The frames the format rules out. -/
inductive Malformed : Bytes → Prop
  | short {frame : Bytes} (h : frame.length < 5) : Malformed frame
  | unknownTag {tag : UInt8} {rest : Bytes} (h : AuditTag.fromByte tag = none) :
      Malformed (tag :: rest)
  | wrongLength {t : AuditTag} {len : Nat} {rest : Bytes} (hlen : len < 256 ^ 4)
      (h : len ≠ t.payloadLen) : Malformed (encodeFrameHeader t.code len ++ rest)
  | truncated {t : AuditTag} {payload : Bytes} (h : payload.length < t.payloadLen) :
      Malformed (encodeFrameHeader t.code t.payloadLen ++ payload)
  | trailing {t : AuditTag} {payload : Bytes} (h : t.payloadLen < payload.length) :
      Malformed (encodeFrameHeader t.code t.payloadLen ++ payload)
  | reserved {t : AuditTag} {payload : Bytes} (h : Reserved t payload) :
      Malformed (encodeFrameHeader t.code t.payloadLen ++ payload)

theorem field_append {a b c : Bytes} {offset width : Nat} (ha : a.length = offset)
    (hb : b.length = width) : field (a ++ (b ++ c)) offset width = b := by
  rw [field, List.drop_left' ha, List.take_left' hb]

theorem field_role_hello (m : AuditHello) : field (AuditHello.codec.enc m) 0 1 = [m.role.code] := rfl

theorem field_offer_hello (m : AuditHello) :
    field (AuditHello.codec.enc m) 169 2 = Codec.u16.enc m.formatVersion := by
  have hsplit : AuditHello.codec.enc m =
      ([m.role.code] ++ m.persistentAuditKey.1 ++ m.sessionKey.1 ++ m.nonce.1 ++
        Codec.u64.enc m.ledgerSequence ++ m.ledgerRoot.1 ++ m.connectionBinding.1) ++
      (Codec.u16.enc m.formatVersion ++ (m.inputCommitment.1 ++ m.signature.1)) := by
    change AuditHello.unsignedCodec.enc m.unsigned ++ m.signature.1 = _
    rw [show AuditHello.unsignedCodec.enc m.unsigned = [m.role.code] ++ (m.persistentAuditKey.1 ++
      (m.sessionKey.1 ++ (m.nonce.1 ++ (Codec.u64.enc m.ledgerSequence ++ (m.ledgerRoot.1 ++
        (m.connectionBinding.1 ++ (Codec.u16.enc m.formatVersion ++ m.inputCommitment.1))))))) from rfl]
    simp only [List.append_assoc]
  rw [hsplit]
  refine field_append ?_ (Codec.u16.enc_length _)
  simp [m.persistentAuditKey.2, m.sessionKey.2, m.nonce.2, m.ledgerRoot.2, m.connectionBinding.2,
    Codec.u64.enc_length]

theorem field_offer_ready (m : AuditReady) :
    field (AuditReady.codec.enc m) 64 2 = Codec.u16.enc m.formatVersion := by
  have hsplit : AuditReady.codec.enc m = (m.sessionId.1 ++ m.peerAuditHelloDigest.1) ++
      (Codec.u16.enc m.formatVersion ++ m.signature.1) := by
    change AuditReady.unsignedCodec.enc m.unsigned ++ m.signature.1 = _
    rw [show AuditReady.unsignedCodec.enc m.unsigned = m.sessionId.1 ++
      (m.peerAuditHelloDigest.1 ++ Codec.u16.enc m.formatVersion) from rfl]
    simp only [List.append_assoc]
  rw [hsplit]
  refine field_append ?_ (Codec.u16.enc_length _)
  simp [m.sessionId.2, m.peerAuditHelloDigest.2]

theorem field_role_seal (m : LocalRecordSeal) :
    field (LocalRecordSeal.codec.enc m) 32 1 = [m.role.code] := by
  change field ((m.sessionId.1 ++ ([m.role.code] ++ _)) ++ m.signature.1) 32 1 = _
  rw [List.append_assoc, List.append_assoc]
  exact field_append m.sessionId.2 rfl

theorem field_result_commit (m : LedgerCommit) :
    field (LedgerCommit.codec.enc m) 168 1 = [m.result.code] := by
  have hsplit : LedgerCommit.codec.enc m = (Codec.u64.enc m.sequence ++ m.previousRoot.1 ++
      m.sessionId.1 ++ m.manifestDigest.1 ++ m.sealedRecordDigest.1 ++
        m.peerIdentityFingerprint.1) ++ ([m.result.code] ++ m.signature.1) := by
    change LedgerCommit.unsignedCodec.enc m.unsigned ++ m.signature.1 = _
    rw [show LedgerCommit.unsignedCodec.enc m.unsigned = Codec.u64.enc m.sequence ++
      (m.previousRoot.1 ++ (m.sessionId.1 ++ (m.manifestDigest.1 ++ (m.sealedRecordDigest.1 ++
        (m.peerIdentityFingerprint.1 ++ [m.result.code]))))) from rfl]
    simp only [List.append_assoc]
  rw [hsplit]
  refine field_append ?_ rfl
  simp [m.previousRoot.2, m.sessionId.2, m.manifestDigest.2, m.sealedRecordDigest.2,
    m.peerIdentityFingerprint.2, Codec.u64.enc_length]

/-- The fields of a manifest in front of its ending. -/
def manifestFront (m : JointManifest) : Bytes :=
  Codec.u16.enc m.formatVersion ++ m.sessionId.1 ++ m.controllerFingerprint.1 ++
    m.hostFingerprint.1 ++ m.controllerSessionKey.1 ++ m.hostSessionKey.1 ++
    m.connectionBinding.1 ++ m.terminalHelloDigest.1 ++ snapshotCodec.enc m.finalSnapshot

theorem length_manifestFront (m : JointManifest) : (manifestFront m).length = 386 := by
  have hsnapshot : (snapshotCodec.enc m.finalSnapshot).length = 160 := snapshotCodec.enc_length _
  simp [manifestFront, Codec.u16.enc_length, m.sessionId.2, m.controllerFingerprint.2,
    m.hostFingerprint.2, m.controllerSessionKey.2, m.hostSessionKey.2, m.connectionBinding.2,
    m.terminalHelloDigest.2, hsnapshot]

/-- The ending stands in five bytes, and is followed by the flag and the last sequence. -/
theorem manifest_split (m : JointManifest) : JointManifest.codec.enc m = manifestFront m ++
    ([m.ending.tag] ++ (Codec.u32.enc m.ending.value ++ ([if m.endedNormally then 1 else 0] ++
      Codec.u64.enc m.finalCheckpointSequence))) := by
  have htag : Codec.u8.enc m.ending.tag = [m.ending.tag] := by
    cases m.ending with
    | shellExit => exact (by decide : Codec.u8.enc 1 = [1])
    | closeReason => exact (by decide : Codec.u8.enc 2 = [2])
  have hraw : JointManifest.codec.enc m = Codec.u16.enc m.formatVersion ++ (m.sessionId.1 ++
      (m.controllerFingerprint.1 ++ (m.hostFingerprint.1 ++ (m.controllerSessionKey.1 ++
        (m.hostSessionKey.1 ++ (m.connectionBinding.1 ++ (m.terminalHelloDigest.1 ++
          (snapshotCodec.enc m.finalSnapshot ++ ((Codec.u8.enc m.ending.tag ++
            Codec.u32.enc m.ending.value) ++ ([if m.endedNormally then 1 else 0] ++
              Codec.u64.enc m.finalCheckpointSequence)))))))))) := rfl
  rw [hraw, htag, manifestFront]
  simp only [List.append_assoc]

theorem field_version_manifest (m : JointManifest) :
    field (JointManifest.codec.enc m) 0 2 = Codec.u16.enc m.formatVersion := rfl

theorem field_ending_manifest (m : JointManifest) :
    field (JointManifest.codec.enc m) 386 1 = [m.ending.tag] := by
  rw [manifest_split]
  exact field_append (length_manifestFront m) rfl

theorem field_value_manifest (m : JointManifest) :
    field (JointManifest.codec.enc m) 387 4 = Codec.u32.enc m.ending.value := by
  rw [manifest_split, ← List.append_assoc]
  refine field_append ?_ (Codec.u32.enc_length _)
  simp [length_manifestFront]

theorem field_flag_manifest (m : JointManifest) :
    field (JointManifest.codec.enc m) 391 1 = [if m.endedNormally then 1 else 0] := by
  rw [manifest_split, ← List.append_assoc, ← List.append_assoc]
  refine field_append ?_ rfl
  simp [length_manifestFront, Codec.u32.enc_length]

/-- The value of an ending by a close reason is the code of the reason behind three zero bytes. -/
theorem value_closeReason (reason : AuditCloseReason) :
    Codec.u32.enc (ManifestEnding.closeReason reason).value = [0, 0, 0, reason.code] := by
  cases reason <;> decide

theorem offer_ne_zero {version : UInt16} (h : version ≠ 0) : Codec.u16.enc version ≠ [0, 0] := by
  intro hzero
  exact h (Codec.u16.enc_inj trivial trivial (hzero.trans (by decide : [0, 0] = Codec.u16.enc 0)))

/-- A code that is written as a byte is read back, so a byte without a meaning is not a code. -/
theorem ne_of_code {α : Type} {code : α → UInt8} {ofByte : UInt8 → Option α}
    (hcode : ∀ b a, ofByte b = some a ↔ code a = b) (a : α) :
    ¬ ∃ b, [code a] = [b] ∧ ofByte b = none := by
  rintro ⟨b, hb, hnone⟩
  have hsome := (hcode b a).2 (List.cons.inj hb).1
  rw [hnone] at hsome
  cases hsome

theorem manifest_not_reserved {m : JointManifest} (hversion : m.formatVersion = auditFormatVersion) :
    ¬ Reserved .jointManifest (JointManifest.codec.enc m) := by
  rintro (h | ⟨b, hb, hone, htwo⟩ | ⟨htag, hvalue⟩ | ⟨b, hb, hflag⟩)
  · exact h (by rw [field_version_manifest, hversion])
  · rw [field_ending_manifest] at hb
    obtain rfl := (List.cons.inj hb).1
    cases hending : m.ending with
    | shellExit => exact hone (by rw [hending]; rfl)
    | closeReason => exact htwo (by rw [hending]; rfl)
  · rw [field_ending_manifest] at htag
    -- Only an ending by a close reason has tag two, and then the last byte is its code.
    cases hending : m.ending with
    | shellExit => rw [hending] at htag; cases htag
    | closeReason reason =>
      have hfour := field_value_manifest m
      rw [hending, value_closeReason] at hfour
      have hhigh : field (JointManifest.codec.enc m) 387 3 = [0, 0, 0] := by
        have htake := congrArg (List.take 3) hfour
        rwa [field, List.take_take] at htake
      have hlow : field (JointManifest.codec.enc m) 390 1 = [reason.code] := by
        have hdrop := congrArg (List.drop 3) hfour
        rwa [field, List.drop_take, List.drop_drop] at hdrop
      rcases hvalue with h | h
      · exact h hhigh
      · rw [hlow] at h
        exact ne_of_code AuditCloseReason.fromByte_eq_some reason h
  · rw [field_flag_manifest] at hb
    obtain rfl := (List.cons.inj hb).1
    revert hflag
    cases m.endedNormally <;> decide

/-- No payload that is read has a reserved field. -/
theorem not_reserved_of_readPayload {payload : Bytes} (h : readPayload t payload = some m) :
    ¬ Reserved t payload := by
  obtain ⟨rfl, hoffers, henc⟩ := readPayload_eq_some.1 h
  cases m with
  | auditHello m =>
    cases henc
    rintro (hrole | hversion)
    · rw [field_role_hello] at hrole
      exact ne_of_code AuditRole.fromByte_eq_some m.role hrole
    · rw [field_offer_hello] at hversion
      exact offer_ne_zero hoffers hversion
  | auditReady m =>
    cases henc
    intro hversion
    rw [AuditMessage.tag, Reserved, field_offer_ready] at hversion
    exact offer_ne_zero hoffers hversion
  | jointManifest m =>
    obtain ⟨hversion, rfl⟩ := encodePayload_eq_some.1 henc
    exact manifest_not_reserved hversion
  | localRecordSeal m =>
    cases henc
    intro hrole
    rw [AuditMessage.tag, Reserved, field_role_seal] at hrole
    exact ne_of_code AuditRole.fromByte_eq_some m.role hrole
  | ledgerCommit m =>
    cases henc
    intro hresult
    rw [AuditMessage.tag, Reserved, field_result_commit] at hresult
    exact ne_of_code SessionResult.fromByte_eq_some m.result hresult
  | closeNotice reason =>
    cases henc
    exact ne_of_code AuditCloseReason.fromByte_eq_some reason
  | auditError code =>
    cases henc
    rintro ⟨v, hv, hnone⟩
    have hcode : code.code = v := Codec.u16.enc_inj trivial trivial hv
    rw [(AuditErrorCode.fromU16_eq_some v code).2 hcode] at hnone
    cases hnone
  | secretContribution => exact id
  | checkpoint => exact id
  | checkpointAck => exact id
  | manifestSignature => exact id

/-- The two parts of an accepted frame. -/
theorem parts_of_decodeFrame (h : decodeFrame frame = .ok m) :
    ∃ payload, frame = encodeFrameHeader m.tag.code m.tag.payloadLen ++ payload ∧
      payload.length = m.tag.payloadLen ∧ readPayload m.tag payload = some m := by
  obtain ⟨hoffers, henc⟩ := decodeFrame_eq_ok.1 h
  unfold encode at henc
  split at henc
  · cases henc
  · rename_i payload hpayload
    have hlen := length_encodePayload hpayload
    exact ⟨payload, by rw [← hlen]; exact (Except.ok.inj henc).symm, hlen,
      readPayload_eq_some.2 ⟨rfl, hoffers, hpayload⟩⟩

/-- Two frames that start with a header and agree have the same header and the same payload. -/
theorem header_append_inj {a b : UInt8} {len' : Nat} {rest rest' : Bytes} (hlen : len < 256 ^ 4)
    (hlen' : len' < 256 ^ 4)
    (h : encodeFrameHeader a len ++ rest = encodeFrameHeader b len' ++ rest') :
    a = b ∧ len = len' ∧ rest = rest' := by
  obtain ⟨hhead, hrest⟩ := List.append_inj h (by simp [encodeFrameHeader])
  obtain ⟨hab, hdigits⟩ := List.cons.inj hhead
  have hvalue := congrArg beNat hdigits
  rw [beNat_beBytes, beNat_beBytes, Nat.mod_eq_of_lt hlen, Nat.mod_eq_of_lt hlen'] at hvalue
  exact ⟨hab, hvalue, hrest⟩

theorem not_malformed_of_decodeFrame (h : decodeFrame frame = .ok m) : ¬ Malformed frame := by
  obtain ⟨payload, hframe, hlen, hread⟩ := parts_of_decodeFrame h
  -- Each case compares the frame it rules out with the accepted one.
  intro hmalformed
  cases hmalformed with
  | short hshort =>
    rw [hframe] at hshort
    simp [encodeFrameHeader] at hshort
    omega
  | unknownTag hunknown =>
    rw [encodeFrameHeader, List.cons_append] at hframe
    rw [(List.cons.inj hframe).1, AuditTag.fromByte_code] at hunknown
    cases hunknown
  | wrongLength hwide hwrong =>
    obtain ⟨hcode, heq, -⟩ := header_append_inj hwide m.tag.payloadLen_lt hframe
    exact hwrong (heq.trans (by rw [AuditTag.code_inj hcode]))
  | truncated hcut =>
    obtain ⟨-, heq, rfl⟩ := header_append_inj (AuditTag.payloadLen_lt _) m.tag.payloadLen_lt hframe
    omega
  | trailing hmore =>
    obtain ⟨-, heq, rfl⟩ := header_append_inj (AuditTag.payloadLen_lt _) m.tag.payloadLen_lt hframe
    omega
  | reserved hreserved =>
    obtain ⟨hcode, -, rfl⟩ :=
      header_append_inj (AuditTag.payloadLen_lt _) m.tag.payloadLen_lt hframe
    rw [AuditTag.code_inj hcode] at hreserved
    exact not_reserved_of_readPayload hread hreserved

/-- The codec of the audit messages: a message that does not offer version zero comes back from its
frame, an accepted frame is the encoding of its message, and no malformed frame is accepted. -/
theorem audit_message_codec :
    (∀ (m : AuditMessage) (frame : Bytes), m.Offers → m.encode = .ok frame →
      decodeFrame frame = .ok m) ∧
    (∀ (frame : Bytes) (m : AuditMessage), decodeFrame frame = .ok m → m.encode = .ok frame) ∧
    ∀ frame : Bytes, Malformed frame → ∃ e, decodeFrame frame = .error e := by
  refine ⟨?_, ?_, ?_⟩
  · intro m frame hoffers henc
    exact decodeFrame_eq_ok.2 ⟨hoffers, henc⟩
  · intro frame m h
    exact (decodeFrame_eq_ok.1 h).2
  · intro frame hmalformed
    cases h : decodeFrame frame with
    | error e => exact ⟨e, rfl⟩
    | ok m => exact absurd hmalformed (not_malformed_of_decodeFrame h)

/-- A hello whose fields are all zero but the offer. -/
def plainOffer (version : UInt16) : AuditHello :=
  let zero : Digest32 := FixedBytes.replicate 32 0
  ⟨.controller, zero, zero, zero, 0, zero, zero, version, zero, FixedBytes.replicate 64 0⟩

/-- A hello that offers version zero is encoded to a frame the decoder refuses, and an offer of a
version nobody supports is accepted. -/
theorem audit_message_codec_offers :
    (∃ frame, (auditHello (plainOffer 0)).encode = .ok frame ∧
      decodeFrame frame = .error .invalidReserved) ∧
    ∃ frame, decodeFrame frame = .ok (auditHello (plainOffer 4)) := by
  refine ⟨⟨_, rfl, ?_⟩, ⟨_, decodeFrame_eq_ok.2 ⟨?_, rfl⟩⟩⟩
  · decide +kernel
  · exact (by decide : (4 : UInt16) ≠ 0)

end AuditMessage

end Yonder.Wire
