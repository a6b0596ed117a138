import Yonder.Wire.Audit

/-!
# The audit container

A container file is a fixed 713-byte header, record frames, and a footer that only a normal
finalization writes. A frame is its big-endian length, a record type byte and the payload. The
footer is the magic `YFTR`, five `u16`-prefixed components and the final container digest, 1136
bytes in all.

`decodeFooter` reads the prefixed components one after the other, as the source does;
`decodeFooter_eq_some` says that it accepts exactly the encoded footers.
-/

namespace Yonder.Wire

open Lib

def containerMagic : Bytes := [0x59, 0x4F, 0x4E, 0x44, 0x41, 0x55, 0x44, 0x00]

def footerMagic : Bytes := [0x59, 0x46, 0x54, 0x52]

def maxRecordFrameLen : Nat := 1048576

def maxRawOutputFrameLen : Nat := 65537

/-- The record types; an unknown type byte invalidates the container. -/
inductive RecordType where
  | sharedInputCommitment
  | sharedOutputBlock
  | sharedControlEvent
  | sharedFileTransferEvent
  | localRawOutput
  | localDisplayBytes
  | localInputCommitment
  | localSendOutcome
  | localPtyWriteOutcome
  | localDisplayWriteOutcome
  | localResizeEvent
  | localLifecycleEvent
  | localKeyAction
  | localFileTransferEvent
  | localConnectionState
  | localAuditError
  | checkpointEvidence
  | localCloseEvent
deriving DecidableEq, Repr

namespace RecordType

def code : RecordType → UInt8
  | sharedInputCommitment => 0x01
  | sharedOutputBlock => 0x02
  | sharedControlEvent => 0x03
  | sharedFileTransferEvent => 0x04
  | localRawOutput => 0x11
  | localDisplayBytes => 0x12
  | localInputCommitment => 0x13
  | localSendOutcome => 0x14
  | localPtyWriteOutcome => 0x15
  | localDisplayWriteOutcome => 0x16
  | localResizeEvent => 0x17
  | localLifecycleEvent => 0x18
  | localKeyAction => 0x19
  | localFileTransferEvent => 0x1A
  | localConnectionState => 0x1B
  | localAuditError => 0x1C
  | checkpointEvidence => 0x1D
  | localCloseEvent => 0x1E

def all : List RecordType :=
  [sharedInputCommitment, sharedOutputBlock, sharedControlEvent, sharedFileTransferEvent,
    localRawOutput, localDisplayBytes, localInputCommitment, localSendOutcome,
    localPtyWriteOutcome, localDisplayWriteOutcome, localResizeEvent, localLifecycleEvent,
    localKeyAction, localFileTransferEvent, localConnectionState, localAuditError,
    checkpointEvidence, localCloseEvent]

/-- The type with a given code. -/
def fromByte (b : UInt8) : Option RecordType := all.find? fun t => t.code == b

@[simp] theorem fromByte_code (t : RecordType) : fromByte t.code = some t := by
  cases t <;> decide

/-- Whether the type carries raw terminal output and is capped at 64 KiB. -/
def carriesRawOutput : RecordType → Bool
  | localRawOutput => true
  | localDisplayBytes => true
  | _ => false

end RecordType

/-- `validate_frame_len`: the bounds of `frame_length`, which counts the type byte. -/
def validateFrameLen (t : RecordType) (frameLen : Nat) : Bool :=
  decide (1 ≤ frameLen) && decide (frameLen ≤ maxRecordFrameLen) &&
    !(t.carriesRawOutput && decide (maxRawOutputFrameLen < frameLen))

/-- One record: its type and payload. -/
structure Record where
  type : RecordType
  payload : Bytes
deriving DecidableEq

/-- The bytes of one record frame. -/
def Record.encode (r : Record) : Bytes :=
  beBytes 4 (r.payload.length + 1) ++ r.type.code :: r.payload

/-- The writer's payload check, which the frame walker repeats. -/
def Record.Valid (r : Record) : Prop := validateFrameLen r.type (r.payload.length + 1) = true

/-- The record frames of a file, in order. -/
def encodeRecords (rs : List Record) : Bytes := (rs.map Record.encode).flatten

@[simp] theorem encodeRecords_nil : encodeRecords [] = [] := rfl

@[simp] theorem encodeRecords_cons (r : Record) (rs : List Record) :
    encodeRecords (r :: rs) = r.encode ++ encodeRecords rs := rfl

@[simp] theorem encodeRecords_append (rs ss : List Record) :
    encodeRecords (rs ++ ss) = encodeRecords rs ++ encodeRecords ss := by
  simp [encodeRecords]

theorem Record.length_encode (r : Record) : r.encode.length = r.payload.length + 5 := by
  simp [Record.encode]
  omega

theorem Record.Valid.length_lt {r : Record} (h : r.Valid) : r.payload.length + 1 ≤ 1048576 := by
  simp only [Record.Valid, validateFrameLen, Bool.and_eq_true, decide_eq_true_eq] at h
  exact h.1.2

/-- The length field of a legal frame is not the footer magic. -/
theorem beBytes_ne_footerMagic {n : Nat} (h : n ≤ 1048576) : beBytes 4 n ≠ footerMagic := by
  intro e
  have hv := congrArg beNat e
  rw [beNat_beBytes] at hv
  have hm : beNat footerMagic = 1497781330 := by decide
  rw [hm, Nat.mod_eq_of_lt (by omega)] at hv
  omega

/-- The first four bytes of a frame, one by one. -/
theorem exists_four {l : Bytes} (h : l.length = 4) : ∃ b₀ b₁ b₂ b₃, l = [b₀, b₁, b₂, b₃] := by
  match l, h with
  | [b₀, b₁, b₂, b₃], _ => exact ⟨b₀, b₁, b₂, b₃, rfl⟩

/-! ## The header -/

/-- The container header. The magic and the format version are checked constants. -/
structure AuditContainerHeader where
  role : AuditRole
  sessionId : Digest32
  identityPubkey : Ed25519PublicKey
  sessionPubkey : Ed25519PublicKey
  peerIdentityPubkey : Ed25519PublicKey
  peerSessionPubkey : Ed25519PublicKey
  ledgerSequence : UInt64
  previousLedgerRoot : Digest32
  utcStartSeconds : UInt64
  authMode : AuthMode
  terminalHelloDigest : Digest32
  auditHello : AuditHello
  auditReady : AuditReady
  headerSignature : Ed25519Signature
deriving DecidableEq

namespace AuditContainerHeader

/-- `append_header_fields`: every field but the header signature. -/
def unsignedCodec : Codec (AuditRole × Digest32 × Digest32 × Digest32 × Digest32 × Digest32 ×
    UInt64 × Digest32 × UInt64 × AuthMode × Digest32 × AuditHello × AuditReady) :=
  roleCodec.prod (digestCodec.prod (digestCodec.prod (digestCodec.prod (digestCodec.prod
    (digestCodec.prod (Codec.u64.prod (digestCodec.prod (Codec.u64.prod
    ((Codec.tag AuthMode.code AuthMode.fromByte AuthMode.fromByte_eq_some).prod
    (digestCodec.prod (AuditHello.codec.prod AuditReady.codec)))))))))))

def unsigned (h : AuditContainerHeader) : AuditRole × Digest32 × Digest32 × Digest32 × Digest32 ×
    Digest32 × UInt64 × Digest32 × UInt64 × AuthMode × Digest32 × AuditHello × AuditReady :=
  (h.role, h.sessionId, h.identityPubkey, h.sessionPubkey, h.peerIdentityPubkey,
    h.peerSessionPubkey, h.ledgerSequence, h.previousLedgerRoot, h.utcStartSeconds, h.authMode,
    h.terminalHelloDigest, h.auditHello, h.auditReady)

/-- The magic and format version, the fields and the header signature. -/
def codec : Codec AuditContainerHeader :=
  ((Codec.const (containerMagic ++ beBytes 2 auditFormatVersion.toNat)).prod
    (unsignedCodec.prod signatureCodec)).iso
    ⟨fun ((), (r, s, i, k, pi, pk, q, l, u, m, t, hello, ready), sig) =>
        ⟨r, s, i, k, pi, pk, q, l, u, m, t, hello, ready, sig⟩,
      fun h => ((), h.unsigned, h.headerSignature), fun _ => rfl, fun _ => rfl⟩

def signingInput (h : AuditContainerHeader) : Bytes :=
  utf8 "yonder-audit-container-header-v3" ++ unsignedCodec.enc h.unsigned

end AuditContainerHeader

def containerHeaderLen : Nat := 713

@[simp] theorem headerCodec_width : AuditContainerHeader.codec.width = 713 := rfl

@[simp] theorem headerCodec_ok (h : AuditContainerHeader) :
    AuditContainerHeader.codec.ok h ↔
      h.auditHello.formatVersion ≠ 0 ∧ h.auditReady.formatVersion ≠ 0 := by
  simp [AuditContainerHeader.codec, AuditContainerHeader.unsignedCodec,
    AuditContainerHeader.unsigned, roleCodec, digestCodec, signatureCodec, Codec.const]

/-! ## The footer -/

/-- The footer components with the final container digest and the three digest boundaries, as
offsets from the start of the footer magic. -/
structure DecodedFooter where
  manifest : JointManifest
  controllerSessionSignature : Ed25519Signature
  hostSessionSignature : Ed25519Signature
  recordSeal : LocalRecordSeal
  ledgerCommit : LedgerCommit
  finalContainerDigest : Digest32
  sealedPrefixEnd : Nat
  sealEnd : Nat
  ledgerEnd : Nat
deriving DecidableEq

/-- `write_prefixed`. -/
def writePrefixed (source : Bytes) : Bytes := beBytes 2 source.length ++ source

/-- `take_prefixed`: one component and the bytes after it. -/
def takePrefixed (input : Bytes) : Option (Bytes × Bytes) :=
  if input.length < 2 then none
  else
    let len := beNat (input.take 2)
    let rest := input.drop 2
    if rest.length < len then none else some (rest.take len, rest.drop len)

/-- `decode_footer`. -/
def decodeFooter (bytes : Bytes) : Option DecodedFooter :=
  if footerMagic <+: bytes then do
    let (manifestBytes, rest) ← takePrefixed (bytes.drop footerMagic.length)
    let manifest ← JointManifest.codec.dec manifestBytes
    let (controllerBytes, rest) ← takePrefixed rest
    let controllerSignature ← signatureCodec.dec controllerBytes
    let (hostBytes, rest) ← takePrefixed rest
    let hostSignature ← signatureCodec.dec hostBytes
    let sealedPrefixEnd := bytes.length - rest.length
    let (sealBytes, rest) ← takePrefixed rest
    let recordSeal ← LocalRecordSeal.codec.dec sealBytes
    let sealEnd := bytes.length - rest.length
    let (ledgerBytes, rest) ← takePrefixed rest
    let ledgerCommit ← LedgerCommit.codec.dec ledgerBytes
    let ledgerEnd := bytes.length - rest.length
    let digest ← digestCodec.dec rest
    return ⟨manifest, controllerSignature, hostSignature, recordSeal, ledgerCommit, digest,
      sealedPrefixEnd, sealEnd, ledgerEnd⟩
  else none

/-- The footer magic, the manifest and both session signatures. -/
def encodeManifestPart (m : JointManifest) (cs hs : Ed25519Signature) : Bytes :=
  footerMagic ++ writePrefixed (JointManifest.codec.enc m) ++ writePrefixed cs.1 ++
    writePrefixed hs.1

/-- A complete footer. -/
def encodeFooter (m : JointManifest) (cs hs : Ed25519Signature) (recordSeal : LocalRecordSeal)
    (commit : LedgerCommit) (digest : Digest32) : Bytes :=
  encodeManifestPart m cs hs ++ writePrefixed (LocalRecordSeal.codec.enc recordSeal) ++
    writePrefixed (LedgerCommit.codec.enc commit) ++ digest.1

theorem takePrefixed_writePrefixed (a rest : Bytes) (h : a.length < 65536) :
    takePrefixed (writePrefixed a ++ rest) = some (a, rest) := by
  have hb : beNat (beBytes 2 a.length) = a.length := by
    rw [beNat_beBytes]
    exact Nat.mod_eq_of_lt h
  have ht : (beBytes 2 a.length ++ (a ++ rest)).take 2 = beBytes 2 a.length :=
    List.take_left' (length_beBytes 2 _)
  have hd : (beBytes 2 a.length ++ (a ++ rest)).drop 2 = a ++ rest :=
    List.drop_left' (length_beBytes 2 _)
  unfold takePrefixed writePrefixed
  rw [List.append_assoc, ht, hd, hb]
  simp
  omega

theorem takePrefixed_eq_some {input a rest : Bytes} (h : takePrefixed input = some (a, rest)) :
    input = writePrefixed a ++ rest := by
  unfold takePrefixed at h
  simp only at h
  split at h
  · cases h
  · rename_i hl
    split at h
    · cases h
    · rename_i hlen
      obtain ⟨rfl, rfl⟩ := Prod.mk.inj (Option.some.inj h)
      have h2 : (input.take 2).length = 2 := by rw [List.length_take]; omega
      have hn := beBytes_beNat (input.take 2)
      rw [h2] at hn
      have hm : ((input.drop 2).take (beNat (input.take 2))).length = beNat (input.take 2) := by
        rw [List.length_take]; omega
      rw [writePrefixed, hm, hn, List.append_assoc, List.take_append_drop, List.take_append_drop]

@[simp] theorem length_writePrefixed (a : Bytes) : (writePrefixed a).length = a.length + 2 := by
  simp [writePrefixed]
  omega

@[simp] theorem length_encodeManifestPart (m : JointManifest) (cs hs : Ed25519Signature) :
    (encodeManifestPart m cs hs).length = 538 := by
  simp [encodeManifestPart, footerMagic, JointManifest.codec.enc_length, cs.2, hs.2]

@[simp] theorem length_encodeFooter (m : JointManifest) (cs hs : Ed25519Signature)
    (recordSeal : LocalRecordSeal) (commit : LedgerCommit) (digest : Digest32) :
    (encodeFooter m cs hs recordSeal commit digest).length = 1136 := by
  simp [encodeFooter, LocalRecordSeal.codec.enc_length, LedgerCommit.codec.enc_length, digest.2]

/-- The components of a footer are read back in order. -/
theorem decodeFooter_parts {mb cb hb sb lb db : Bytes} {m : JointManifest}
    {cs hs : Ed25519Signature} {recordSeal : LocalRecordSeal} {commit : LedgerCommit}
    {digest : Digest32} (hm : JointManifest.codec.dec mb = some m)
    (hcs : signatureCodec.dec cb = some cs) (hhs : signatureCodec.dec hb = some hs)
    (hsl : LocalRecordSeal.codec.dec sb = some recordSeal)
    (hlc : LedgerCommit.codec.dec lb = some commit) (hdg : digestCodec.dec db = some digest) :
    decodeFooter (footerMagic ++ (writePrefixed mb ++ (writePrefixed cb ++ (writePrefixed hb ++
      (writePrefixed sb ++ (writePrefixed lb ++ db)))))) =
      some ⟨m, cs, hs, recordSeal, commit, digest, 538, 869, 1104⟩ := by
  have lm : mb.length = 400 := JointManifest.codec.length_of_dec hm
  have lcs : cb.length = 64 := signatureCodec.length_of_dec hcs
  have lhs : hb.length = 64 := signatureCodec.length_of_dec hhs
  have lsl : sb.length = 329 := LocalRecordSeal.codec.length_of_dec hsl
  have llc : lb.length = 233 := LedgerCommit.codec.length_of_dec hlc
  have ldg : db.length = 32 := digestCodec.length_of_dec hdg
  have lmagic : footerMagic.length = 4 := rfl
  unfold decodeFooter
  rw [if_pos (List.prefix_append _ _), List.drop_left]
  simp only [takePrefixed_writePrefixed, lm, lcs, lhs, lsl, llc, hm, hcs, hhs, hsl, hlc, hdg,
    Option.bind_eq_bind, Option.bind_some, Option.pure_def, List.length_append,
    length_writePrefixed, ldg, lmagic, Nat.reduceLT, Nat.reduceAdd, Nat.reduceSub]

/-- Every encoded footer decodes to its components, with the fixed boundaries. -/
theorem decodeFooter_encodeFooter (m : JointManifest) (cs hs : Ed25519Signature)
    (recordSeal : LocalRecordSeal) (commit : LedgerCommit) (digest : Digest32)
    (hm : m.formatVersion = auditFormatVersion) :
    decodeFooter (encodeFooter m cs hs recordSeal commit digest) =
      some ⟨m, cs, hs, recordSeal, commit, digest, 538, 869, 1104⟩ := by
  have e := decodeFooter_parts (JointManifest.codec.dec_enc ((manifestCodec_ok m).2 hm))
    (signatureCodec.dec_enc (Codec.bytes_ok cs)) (signatureCodec.dec_enc (Codec.bytes_ok hs))
    (LocalRecordSeal.codec.dec_enc (sealCodec_ok recordSeal))
    (LedgerCommit.codec.dec_enc (commitCodec_ok commit))
    (digestCodec.dec_enc (Codec.bytes_ok digest))
  rw [← e]
  simp only [encodeFooter, encodeManifestPart, List.append_assoc]
  rfl

/-- Only encoded footers decode. -/
theorem decodeFooter_eq_some {bytes : Bytes} {d : DecodedFooter}
    (h : decodeFooter bytes = some d) :
    d.manifest.formatVersion = auditFormatVersion ∧
      bytes = encodeFooter d.manifest d.controllerSessionSignature d.hostSessionSignature
        d.recordSeal d.ledgerCommit d.finalContainerDigest ∧
      d.sealedPrefixEnd = 538 ∧ d.sealEnd = 869 ∧ d.ledgerEnd = 1104 := by
  unfold decodeFooter at h
  split at h
  swap
  · cases h
  rename_i hpre
  simp only [Option.bind_eq_bind, Option.bind_eq_some_iff, Option.pure_def,
    Option.some.injEq, Prod.exists] at h
  obtain ⟨mb, r₁, h₁, m, hm, cb, r₂, h₂, cs, hcs, hb, r₃, h₃, hs, hhs, sb, r₄, h₄, sl, hsl,
    lb, r₅, h₅, lc, hlc, dg, hdg, rfl⟩ := h
  have hok := (manifestCodec_ok m).1 (JointManifest.codec.ok_of_dec hm)
  have hbytes : bytes = encodeFooter m cs hs sl lc dg := by
    obtain ⟨tail, htail⟩ := hpre
    rw [← htail, List.drop_left] at h₁
    rw [← htail, takePrefixed_eq_some h₁, takePrefixed_eq_some h₂, takePrefixed_eq_some h₃,
      takePrefixed_eq_some h₄, takePrefixed_eq_some h₅, ← JointManifest.codec.enc_of_dec hm,
      ← signatureCodec.enc_of_dec hcs, ← signatureCodec.enc_of_dec hhs,
      ← LocalRecordSeal.codec.enc_of_dec hsl, ← LedgerCommit.codec.enc_of_dec hlc,
      ← digestCodec.enc_of_dec hdg]
    simp only [encodeFooter, encodeManifestPart, List.append_assoc]
    rfl
  have l₅ : r₅.length = 32 := digestCodec.length_of_dec hdg
  have e₅ := congrArg List.length (takePrefixed_eq_some h₅)
  have e₄ := congrArg List.length (takePrefixed_eq_some h₄)
  have w₅ := LedgerCommit.codec.length_of_dec hlc
  have w₄ := LocalRecordSeal.codec.length_of_dec hsl
  simp only [List.length_append, length_writePrefixed, commitCodec_width, sealCodec_width]
    at e₅ e₄ w₅ w₄
  have hlen : bytes.length = 1136 := by rw [hbytes, length_encodeFooter]
  refine ⟨hok, hbytes, ?_, ?_, ?_⟩ <;> simp only <;> omega

end Yonder.Wire
