import Yonder.Audit.Simulation

/-!
# What the audit code hashes and signs

`Hashed` has one constructor for each kind of byte string that the audit code hashes, authenticates or
signs, with the fields that go into it, and `Hashed.bytes` builds the string. Every string starts with
the label of its `Domain`. No label is the beginning of another, so two strings with one value are of
one domain; inside a domain the fields are read back from their fixed lengths, from their length
fields, or, where one field has no length of its own, from the length of the whole string.

Two things limit this. The input blocks are authenticated under the label of the input chain, and a
control event is hashed with zero bytes behind it, so that its payload can only be told from a shorter
one because its kind fixes the length.
-/

namespace Yonder.Audit

open Lib Wire

/-- The labels in front of the hashed and signed strings. -/
inductive Domain where
  | chain (stream : SharedStream)
  | chainLocal
  | session
  | connectionBinding
  | auditHello
  | auditReady
  | checkpoint
  | checkpointAck
  | manifest
  | recordSeal
  | ledgerCommit
  | containerHeader
deriving DecidableEq, Repr

namespace Domain

def label : Domain → Bytes
  | chain stream => chainDomain stream
  | chainLocal => chainLocalDomain
  | session => utf8 "yonder-audit-session-v3"
  | connectionBinding => utf8 "yonder-audit-connection-binding-v3"
  | auditHello => utf8 "yonder-audit-hello-v3"
  | auditReady => utf8 "yonder-audit-ready-v3"
  | checkpoint => utf8 "yonder-audit-checkpoint-v3"
  | checkpointAck => utf8 "yonder-audit-checkpoint-ack-v3"
  | manifest => utf8 "yonder-audit-manifest-v3"
  | recordSeal => utf8 "yonder-audit-seal-v3"
  | ledgerCommit => utf8 "yonder-audit-ledger-commit-v3"
  | containerHeader => utf8 "yonder-audit-container-header-v3"

def all : List Domain :=
  [chain .input, chain .output, chain .control, chain .fileTransfer, chainLocal, session,
    connectionBinding, auditHello, auditReady, checkpoint, checkpointAck, manifest, recordSeal,
    ledgerCommit, containerHeader]

theorem mem_all (d : Domain) : d ∈ all := by
  cases d with
  | chain stream => cases stream <;> decide
  | _ => decide

/-- No label is the beginning of another one. -/
theorem eq_of_isPrefix_label {d d' : Domain} (h : d.label <+: d'.label) : d = d' := by
  have hall : ∀ d ∈ all, ∀ d' ∈ all, d.label <+: d'.label → d = d' := by decide +kernel
  exact hall d (mem_all d) d' (mem_all d') h

/-- Strings that start with their labels and are equal have one label. -/
theorem eq_of_append_eq {d d' : Domain} {body body' : Bytes}
    (h : d.label ++ body = d'.label ++ body') : d = d' ∧ body = body' := by
  have hpre : d.label <+: d'.label ++ body' := ⟨body, h⟩
  have hdomain : d = d' := by
    rcases List.prefix_or_prefix_of_prefix hpre (List.prefix_append _ body') with hp | hp
    · exact eq_of_isPrefix_label hp
    · exact (eq_of_isPrefix_label hp).symm
  subst hdomain
  exact ⟨rfl, List.append_cancel_left h⟩

end Domain

/-- The nine values that identify a session. -/
structure SessionIdFields where
  binding : Digest32
  controllerNonce : Digest32
  hostNonce : Digest32
  controllerIdentity : Digest32
  hostIdentity : Digest32
  controllerKey : Digest32
  hostKey : Digest32
  controllerCommitment : Digest32
  hostCommitment : Digest32
deriving DecidableEq

def sessionIdCodec : Codec SessionIdFields :=
  (digestCodec.prod (digestCodec.prod (digestCodec.prod (digestCodec.prod (digestCodec.prod
    (digestCodec.prod (digestCodec.prod (digestCodec.prod digestCodec)))))))).iso
    ⟨fun (b, cn, hn, ci, hi, ck, hk, cc, hc) => ⟨b, cn, hn, ci, hi, ck, hk, cc, hc⟩,
      fun f => (f.binding, f.controllerNonce, f.hostNonce, f.controllerIdentity, f.hostIdentity,
        f.controllerKey, f.hostKey, f.controllerCommitment, f.hostCommitment),
      fun _ => rfl, fun _ => rfl⟩

/-- What is hashed, authenticated or signed. -/
inductive Hashed (PeerId : Type) where
  | sharedEvent (previous : Digest32) (direction : UInt8) (sequence : UInt64) (event : SharedEvent)
  | localEvent (previous : Digest32) (localSequence timeNs : UInt64) (kind : UInt8) (payload : Bytes)
      (related : Digest32)
  | inputBlock (direction : UInt8) (sequence length : UInt64) (block : Bytes)
  | sessionId (fields : SessionIdFields)
  | connectionBinding (controller host : PeerId)
  | auditHello (message : AuditHello)
  | auditReady (message : AuditReady)
  | checkpoint (message : Checkpoint)
  | checkpointAck (message : CheckpointAck)
  | jointManifest (message : JointManifest)
  | localRecordSeal (message : LocalRecordSeal)
  | ledgerCommit (message : LedgerCommit)
  | containerHeader (header : AuditContainerHeader)

namespace Hashed

variable {PeerId : Type}

def domain : Hashed PeerId → Domain
  | sharedEvent _ _ _ event => .chain event.stream
  | localEvent .. => .chainLocal
  | inputBlock .. => .chain .input
  | sessionId _ => .session
  | connectionBinding .. => .connectionBinding
  | auditHello _ => .auditHello
  | auditReady _ => .auditReady
  | checkpoint _ => .checkpoint
  | checkpointAck _ => .checkpointAck
  | jointManifest _ => .manifest
  | localRecordSeal _ => .recordSeal
  | ledgerCommit _ => .ledgerCommit
  | containerHeader _ => .containerHeader

section Body

variable (peerIdBytes : PeerId → Bytes)

/-- What follows the label. -/
def body : Hashed PeerId → Bytes
  | sharedEvent previous direction sequence event =>
    previous.1 ++ (UInt8.ofNat event.stream.index :: direction ::
      (Codec.u64.enc sequence ++ (event.kindByte :: event.hashed)))
  | localEvent previous localSequence timeNs kind payload related =>
    previous.1 ++ (Codec.u64.enc localSequence ++ (Codec.u64.enc timeNs ++
      (kind :: (payload ++ related.1))))
  | inputBlock direction sequence length block =>
    direction :: (Codec.u64.enc sequence ++ (Codec.u64.enc length ++ block))
  | sessionId fields => sessionIdCodec.enc fields
  | connectionBinding controller host => peerIdBytes controller ++ peerIdBytes host
  | auditHello m => AuditHello.unsignedCodec.enc m.unsigned
  | auditReady m => AuditReady.unsignedCodec.enc m.unsigned
  | checkpoint m => Checkpoint.unsignedCodec.enc m.unsigned
  | checkpointAck m => CheckpointAck.unsignedCodec.enc m.unsigned
  | jointManifest m => JointManifest.codec.enc m
  | localRecordSeal m => LocalRecordSeal.unsignedCodec.enc m.unsigned
  | ledgerCommit m => LedgerCommit.unsignedCodec.enc m.unsigned
  | containerHeader h => AuditContainerHeader.unsignedCodec.enc h.unsigned

/-- The string. -/
def bytes (x : Hashed PeerId) : Bytes := x.domain.label ++ x.body peerIdBytes

end Body

/-- What the code builds: control events with the payload length of their kind, file events whose names
fit their length fields, and manifests of the frozen version. -/
def Built : Hashed PeerId → Prop
  | sharedEvent _ _ _ (.control kind payload) => controlKindPayloadLen kind payload.length = true
  | sharedEvent _ _ _ event => event.NamesFit
  | jointManifest m => m.formatVersion = auditFormatVersion
  | _ => True

/-- The fields that go into the string, which for a signed message are all but the signature. -/
def SameFields : Hashed PeerId → Hashed PeerId → Prop
  | auditHello m, auditHello m' => m.unsigned = m'.unsigned
  | auditReady m, auditReady m' => m.unsigned = m'.unsigned
  | checkpoint m, checkpoint m' => m.unsigned = m'.unsigned
  | checkpointAck m, checkpointAck m' => m.unsigned = m'.unsigned
  | localRecordSeal m, localRecordSeal m' => m.unsigned = m'.unsigned
  | ledgerCommit m, ledgerCommit m' => m.unsigned = m'.unsigned
  | containerHeader h, containerHeader h' => h.unsigned = h'.unsigned
  | x, y => x = y

/-- An input block and an event of the input chain share their label. -/
def SharedLabel : Hashed PeerId → Hashed PeerId → Prop
  | inputBlock .., sharedEvent _ _ _ (.input ..) => True
  | sharedEvent _ _ _ (.input ..), inputBlock .. => True
  | _, _ => False

/-! ## The strings of the model -/

section Model

variable (c : Crypto) (peerIdBytes : PeerId → Bytes)

theorem sharedEventHash_eq (previous : Digest32) (direction : UInt8) (sequence : UInt64)
    (event : SharedEvent) : sharedEventHash c previous direction sequence event =
      c.sha256 ((sharedEvent previous direction sequence event).bytes peerIdBytes) := rfl

theorem localEventHash_eq (previous related : Digest32) (n timeNs : UInt64) (kind : UInt8)
    (payload : Bytes) : localEventHash c previous n timeNs kind payload related =
      c.sha256 ((localEvent previous n timeNs kind payload related).bytes peerIdBytes) := rfl

theorem inputEvent_eq (s : AuditSession) (block : Bytes) :
    s.inputEvent c block = .input (UInt64.ofNat block.length) (c.hmac s.facts.inputKey
      ((inputBlock directionCtrlToHost ((s.shared .input).count + 1) (UInt64.ofNat block.length)
        block).bytes peerIdBytes)) := rfl

/-- The values of a session, by role. -/
def sessionIdFields (s : FreshSession) (peer : AuditHello) : SessionIdFields where
  binding := s.binding
  controllerNonce := (s.byRole s.nonce peer.nonce).1
  hostNonce := (s.byRole s.nonce peer.nonce).2
  controllerIdentity := (s.byRole (s.identityPubkey c) peer.persistentAuditKey).1
  hostIdentity := (s.byRole (s.identityPubkey c) peer.persistentAuditKey).2
  controllerKey := (s.byRole (s.sessionPubkey c) peer.sessionKey).1
  hostKey := (s.byRole (s.sessionPubkey c) peer.sessionKey).2
  controllerCommitment := (s.byRole (s.commitment c) peer.inputCommitment).1
  hostCommitment := (s.byRole (s.commitment c) peer.inputCommitment).2

theorem computeSessionId_eq (s : FreshSession) (peer : AuditHello) :
    s.computeSessionId c peer =
      c.sha256 ((sessionId (sessionIdFields c s peer)).bytes peerIdBytes) := rfl

theorem signingInput_eq :
    (∀ m : AuditHello, m.signingInput = (auditHello m).bytes peerIdBytes) ∧
    (∀ m : AuditReady, m.signingInput = (auditReady m).bytes peerIdBytes) ∧
    (∀ m : Checkpoint, m.signingInput = (checkpoint m).bytes peerIdBytes) ∧
    (∀ m : CheckpointAck, m.signingInput = (checkpointAck m).bytes peerIdBytes) ∧
    (∀ m : JointManifest, m.formatVersion = auditFormatVersion →
      m.signingInput = some ((jointManifest m).bytes peerIdBytes)) ∧
    (∀ m : LocalRecordSeal, m.signingInput = (localRecordSeal m).bytes peerIdBytes) ∧
    (∀ m : LedgerCommit, m.signingInput = (ledgerCommit m).bytes peerIdBytes) ∧
    ∀ h : AuditContainerHeader, h.signingInput = (containerHeader h).bytes peerIdBytes := by
  refine ⟨fun _ => rfl, fun _ => rfl, fun _ => rfl, fun _ => rfl, ?_, fun _ => rfl, fun _ => rfl,
    fun _ => rfl⟩
  intro m hversion
  rw [JointManifest.signingInput, JointManifest.encodePayload, if_pos hversion]
  rfl

/-- `connection_binding_digest`. -/
def connectionBindingDigest (controller host : PeerId) : Digest32 :=
  c.sha256 ((connectionBinding controller host).bytes peerIdBytes)

end Model

/-! ## The fields are read back -/

variable {previous previous' : Digest32} {direction direction' kind : UInt8}
  {sequence sequence' : UInt64}

theorem sharedBody_inj {event event' : SharedEvent} {rest rest' : Bytes} (h : previous.1 ++ (UInt8.ofNat event.stream.index :: direction ::
        (Codec.u64.enc sequence ++ rest)) =
      previous'.1 ++ (UInt8.ofNat event'.stream.index :: direction' ::
        (Codec.u64.enc sequence' ++ rest')))
    :
    previous = previous' ∧ direction = direction' ∧ sequence = sequence' ∧ rest = rest' := by
  obtain ⟨hprevious, hrest⟩ := List.append_inj h (previous.2.trans previous'.2.symm)
  obtain ⟨-, hrest₂⟩ := List.cons.inj hrest
  obtain ⟨hdirection, hrest₃⟩ := List.cons.inj hrest₂
  obtain ⟨hsequence, hrest₄⟩ := List.append_inj hrest₃
    ((length_u64_enc sequence).trans (length_u64_enc sequence').symm)
  exact ⟨Subtype.ext hprevious, hdirection,
    Codec.u64.enc_inj (Codec.u64_ok _) (Codec.u64_ok _) hsequence, hrest₄⟩

theorem block_inj {length length' : UInt64} {digest digest' : Digest32}
    (h : Codec.u64.enc length ++ digest.1 = Codec.u64.enc length' ++ digest'.1) :
    length = length' ∧ digest = digest' := by
  obtain ⟨hlength, hdigest⟩ := List.append_inj h
    ((length_u64_enc length).trans (length_u64_enc length').symm)
  exact ⟨Codec.u64.enc_inj (Codec.u64_ok _) (Codec.u64_ok _) hlength, Subtype.ext hdigest⟩

/-- A kind has one payload length, and it leaves room in the buffer. -/
theorem controlKindPayloadLen_unique {n n' : Nat} (h : controlKindPayloadLen kind n = true)
    (h' : controlKindPayloadLen kind n' = true) : n = n' ∧ n ≤ 32 := by
  unfold controlKindPayloadLen at h h'
  split_ifs at h h' <;> simp_all

theorem hashed_control {payload : Bytes} (h : payload.length ≤ 32) :
    SharedEvent.hashed (.control kind payload) =
      kind :: (payload ++ List.replicate (96 - payload.length) 0) := by
  have htake : (kind :: payload).take 97 = kind :: payload :=
    List.take_of_length_le (by rw [List.length_cons]; omega)
  change (kind :: payload).take 97 ++ List.replicate (97 - (kind :: payload).length) 0 = _
  rw [htake, List.length_cons, List.cons_append]
  congr 3
  omega

/-- The events of one stream are told apart by what is hashed of them. -/
theorem event_inj {event event' : SharedEvent}
    (hb : Built (.sharedEvent previous direction sequence event : Hashed PeerId))
    (hb' : Built (.sharedEvent previous' direction' sequence' event' : Hashed PeerId))
    (hstream : event.stream = event'.stream)
    (h : event.kindByte :: event.hashed = event'.kindByte :: event'.hashed) : event = event' := by
  obtain ⟨hkind, hhashed⟩ := List.cons.inj h
  cases event with
  | input length hmac =>
    cases event' with
    | input length' hmac' =>
      obtain ⟨rfl, rfl⟩ := block_inj hhashed
      rfl
    | _ => cases hstream
  | output length digest =>
    cases event' with
    | output length' digest' =>
      obtain ⟨rfl, rfl⟩ := block_inj hhashed
      rfl
    | _ => cases hstream
  | control kind payload =>
    cases event' with
    | control kind' payload' =>
      obtain rfl : kind = kind' := hkind
      -- The kind fixes the length, so the zero bytes behind the payloads are as many.
      obtain ⟨hlen, hle⟩ := controlKindPayloadLen_unique hb hb'
      rw [hashed_control hle, hashed_control (hlen ▸ hle)] at hhashed
      obtain ⟨rfl, -⟩ := List.append_inj (List.cons.inj hhashed).2 hlen
      rfl
    | _ => cases hstream
  | file kind transferId declaredSize finalSize digest remotePath fileName errorCode =>
    cases event' with
    | file kind' transferId' declaredSize' finalSize' digest' remotePath' fileName' errorCode' =>
      have hread := readFileEvent_canonical (.file kind transferId declaredSize finalSize digest
        remotePath fileName errorCode) rfl hb (List.replicate 64 0)
      have hread' := readFileEvent_canonical (.file kind' transferId' declaredSize' finalSize'
        digest' remotePath' fileName' errorCode') rfl hb' (List.replicate 64 0)
      have hsame := hread.symm.trans ((congrArg readFileEvent hhashed).trans hread')
      exact (Prod.mk.inj (Option.some.inj hsame)).1
    | _ => cases hstream

theorem localBody_inj {related related' : Digest32}
    {localSequence localSequence' timeNs timeNs' : UInt64} {kind' : UInt8}
    {payload payload' : Bytes} (h : previous.1 ++ (Codec.u64.enc localSequence ++ (Codec.u64.enc timeNs ++
        (kind :: (payload ++ related.1)))) =
      previous'.1 ++ (Codec.u64.enc localSequence' ++ (Codec.u64.enc timeNs' ++
        (kind' :: (payload' ++ related'.1)))))
    :
    previous = previous' ∧ localSequence = localSequence' ∧ timeNs = timeNs' ∧ kind = kind' ∧
      payload = payload' ∧ related = related' := by
  obtain ⟨hprevious, hrest⟩ := List.append_inj h (previous.2.trans previous'.2.symm)
  obtain ⟨hsequence, hrest₂⟩ := List.append_inj hrest
    ((length_u64_enc localSequence).trans (length_u64_enc localSequence').symm)
  obtain ⟨htime, hrest₃⟩ := List.append_inj hrest₂
    ((length_u64_enc timeNs).trans (length_u64_enc timeNs').symm)
  obtain ⟨hkind, hrest₄⟩ := List.cons.inj hrest₃
  -- The last field is of fixed length, so the payload is all that is left in front of it.
  obtain ⟨hpayload, hrelated⟩ := List.append_inj' hrest₄ (related.2.trans related'.2.symm)
  exact ⟨Subtype.ext hprevious, Codec.u64.enc_inj (Codec.u64_ok _) (Codec.u64_ok _) hsequence,
    Codec.u64.enc_inj (Codec.u64_ok _) (Codec.u64_ok _) htime, hkind, hpayload,
    Subtype.ext hrelated⟩

theorem inputBlock_inj {length length' : UInt64} {block block' : Bytes} (h : direction :: (Codec.u64.enc sequence ++ (Codec.u64.enc length ++ block)) =
      direction' :: (Codec.u64.enc sequence' ++ (Codec.u64.enc length' ++ block')))
    :
    direction = direction' ∧ sequence = sequence' ∧ length = length' ∧ block = block' := by
  obtain ⟨hdirection, hrest⟩ := List.cons.inj h
  obtain ⟨hsequence, hrest₂⟩ := List.append_inj hrest
    ((length_u64_enc sequence).trans (length_u64_enc sequence').symm)
  obtain ⟨hlength, hblock⟩ := List.append_inj hrest₂
    ((length_u64_enc length).trans (length_u64_enc length').symm)
  exact ⟨hdirection, Codec.u64.enc_inj (Codec.u64_ok _) (Codec.u64_ok _) hsequence,
    Codec.u64.enc_inj (Codec.u64_ok _) (Codec.u64_ok _) hlength, hblock⟩

theorem digestCodec_injective : Function.Injective digestCodec.enc :=
  digestCodec.enc_injective Codec.bytes_ok

theorem roleCodec_injective : Function.Injective roleCodec.enc :=
  roleCodec.enc_injective fun _ => trivial

theorem u64_injective : Function.Injective Codec.u64.enc := Codec.u64.enc_injective Codec.u64_ok

theorem offer_injective : Function.Injective (Codec.u16.guard (· ≠ 0)).enc :=
  Codec.guard_injective (Codec.u16.enc_injective Codec.u16_ok)

theorem helloFields_injective : Function.Injective AuditHello.unsignedCodec.enc := by
  apply Codec.prod_injective roleCodec_injective
  apply Codec.prod_injective digestCodec_injective
  apply Codec.prod_injective digestCodec_injective
  apply Codec.prod_injective digestCodec_injective
  apply Codec.prod_injective u64_injective
  apply Codec.prod_injective digestCodec_injective
  apply Codec.prod_injective digestCodec_injective
  exact Codec.prod_injective offer_injective digestCodec_injective

theorem readyFields_injective : Function.Injective AuditReady.unsignedCodec.enc := by
  apply Codec.prod_injective digestCodec_injective
  exact Codec.prod_injective digestCodec_injective offer_injective

theorem signature_injective : Function.Injective signatureCodec.enc :=
  signatureCodec.enc_injective Codec.bytes_ok

theorem headerFields_injective : Function.Injective AuditContainerHeader.unsignedCodec.enc := by
  apply Codec.prod_injective roleCodec_injective
  apply Codec.prod_injective digestCodec_injective
  apply Codec.prod_injective digestCodec_injective
  apply Codec.prod_injective digestCodec_injective
  apply Codec.prod_injective digestCodec_injective
  apply Codec.prod_injective digestCodec_injective
  apply Codec.prod_injective u64_injective
  apply Codec.prod_injective digestCodec_injective
  apply Codec.prod_injective u64_injective
  apply Codec.prod_injective (Codec.enc_injective _ fun _ => trivial)
  apply Codec.prod_injective digestCodec_injective
  apply Codec.prod_injective
  · exact Codec.iso_injective (Codec.prod_injective helloFields_injective signature_injective)
  · exact Codec.iso_injective (Codec.prod_injective readyFields_injective signature_injective)

/-- Peer identities are written so that they end where they say. -/
def SelfDelimiting (peerIdBytes : PeerId → Bytes) : Prop :=
  ∀ p p' rest rest', peerIdBytes p ++ rest = peerIdBytes p' ++ rest' → p = p' ∧ rest = rest'

/-- Strings that the code builds with one value come from the same fields. -/
theorem sameFields_of_body {peerIdBytes : PeerId → Bytes} (hpeer : SelfDelimiting peerIdBytes)
    {x y : Hashed PeerId} (hx : x.Built) (hy : y.Built) (hlabel : ¬ SharedLabel x y)
    (hdomain : x.domain = y.domain) (h : x.body peerIdBytes = y.body peerIdBytes) :
    SameFields x y := by
  cases x with
  | sharedEvent previous direction sequence event =>
    cases y with
    | sharedEvent previous' direction' sequence' event' =>
      obtain ⟨rfl, rfl, rfl, hrest⟩ := sharedBody_inj h
      obtain rfl := event_inj hx hy (Domain.chain.inj hdomain) hrest
      rfl
    | inputBlock =>
      cases event with
      | input => exact absurd trivial hlabel
      | _ => cases hdomain
    | _ => cases hdomain
  | inputBlock direction sequence length block =>
    cases y with
    | inputBlock direction' sequence' length' block' =>
      obtain ⟨rfl, rfl, rfl, rfl⟩ := inputBlock_inj h
      rfl
    | sharedEvent previous' direction' sequence' event' =>
      cases event' with
      | input => exact absurd trivial hlabel
      | _ => cases hdomain
    | _ => cases hdomain
  | localEvent previous localSequence timeNs kind payload related =>
    cases y with
    | localEvent previous' localSequence' timeNs' kind' payload' related' =>
      obtain ⟨rfl, rfl, rfl, rfl, rfl, rfl⟩ := localBody_inj h
      rfl
    | _ => cases hdomain
  | sessionId fields =>
    cases y with
    | sessionId fields' =>
      obtain rfl : fields = fields' := sessionIdCodec.enc_injective
        (by intro f; simp [sessionIdCodec, digestCodec]) h
      rfl
    | _ => cases hdomain
  | connectionBinding controller host =>
    cases y with
    | connectionBinding controller' host' =>
      obtain ⟨rfl, hhost⟩ := hpeer _ _ _ _ h
      have hnil : peerIdBytes host ++ [] = peerIdBytes host' ++ [] := by rw [hhost]
      obtain ⟨rfl, -⟩ := hpeer _ _ _ _ hnil
      rfl
    | _ => cases hdomain
  | auditHello m =>
    cases y with
    | auditHello m' => exact helloFields_injective h
    | _ => cases hdomain
  | auditReady m =>
    cases y with
    | auditReady m' => exact readyFields_injective h
    | _ => cases hdomain
  | checkpoint m =>
    cases y with
    | checkpoint m' =>
      exact Checkpoint.unsignedCodec.enc_injective
        (by intro f; simp [Checkpoint.unsignedCodec, digestCodec, snapshotCodec,
          streamSnapshotCodec]) h
    | _ => cases hdomain
  | checkpointAck m =>
    cases y with
    | checkpointAck m' =>
      exact CheckpointAck.unsignedCodec.enc_injective
        (by intro f; simp [CheckpointAck.unsignedCodec, digestCodec, snapshotCodec,
          streamSnapshotCodec]) h
    | _ => cases hdomain
  | jointManifest m =>
    cases y with
    | jointManifest m' =>
      obtain rfl : m = m' := JointManifest.codec.enc_inj ((manifestCodec_ok m).2 hx)
        ((manifestCodec_ok m').2 hy) h
      rfl
    | _ => cases hdomain
  | localRecordSeal m =>
    cases y with
    | localRecordSeal m' =>
      exact LocalRecordSeal.unsignedCodec.enc_injective
        (by intro f; simp [LocalRecordSeal.unsignedCodec, digestCodec, roleCodec]) h
    | _ => cases hdomain
  | ledgerCommit m =>
    cases y with
    | ledgerCommit m' =>
      exact LedgerCommit.unsignedCodec.enc_injective
        (by intro f; simp [LedgerCommit.unsignedCodec, digestCodec]) h
    | _ => cases hdomain
  | containerHeader header =>
    cases y with
    | containerHeader header' => exact headerFields_injective h
    | _ => cases hdomain

/-- Domain separation: two strings that the code builds are equal only if they are of one kind and have
the same fields, an input block and an event of the input chain apart. -/
theorem domain_separation {peerIdBytes : PeerId → Bytes} (hpeer : SelfDelimiting peerIdBytes)
    {x y : Hashed PeerId} (hx : x.Built) (hy : y.Built) (hlabel : ¬ SharedLabel x y)
    (h : x.bytes peerIdBytes = y.bytes peerIdBytes) : SameFields x y := by
  obtain ⟨hdomain, hbody⟩ := Domain.eq_of_append_eq h
  exact sameFields_of_body hpeer hx hy hlabel hdomain hbody

/-- Two confirmations that differ in their signatures only. -/
theorem domain_separation_ready :
    SameFields
      (auditReady ⟨zeroHead, zeroHead, 3, ⟨List.replicate 64 0, rfl⟩⟩ : Hashed UInt8)
      (auditReady ⟨zeroHead, zeroHead, 3, ⟨List.replicate 64 1, rfl⟩⟩) := by
  have hpeer : SelfDelimiting fun p : UInt8 => [p] := by
    intro p p' rest rest' h
    exact List.cons.inj h
  exact domain_separation hpeer trivial trivial id rfl

/-- An input block whose length, sequence and contents spell an event of the input chain. -/
def collidingBlock : Hashed PeerId :=
  inputBlock 1 1 66 (List.replicate 16 0 ++ 1 :: (Codec.u64.enc 1 ++ (1 :: List.replicate 40 0)))

def collidingEvent : Hashed PeerId :=
  sharedEvent ⟨1 :: (Codec.u64.enc 1 ++ (Codec.u64.enc 66 ++ List.replicate 15 0)), by decide⟩ 1 1
    (.input 0 zeroHead)

/-- An input block can be authenticated over the very string that an event of the input chain hashes to,
and a control event with one zero byte too many is hashed like the one without. -/
theorem domains_overlap :
    (collidingBlock : Hashed UInt8).bytes (fun p => [p]) = collidingEvent.bytes (fun p => [p]) ∧
    (sharedEvent zeroHead 1 1 (.control controlKindTerminalReady []) : Hashed UInt8).bytes
        (fun p => [p]) =
      (sharedEvent zeroHead 1 1 (.control controlKindTerminalReady [0])).bytes (fun p => [p]) := by
  decide +kernel

end Hashed

end Yonder.Audit
