import Yonder.Audit.Run

/-!
# The record writer and the file of a session

`AuditWriter` appends to one file and keeps the running hash of its contents; its phases enforce the
order header, records, manifest and signatures, seal, ledger commit. The storage itself does not fail
here. The footer of a session binds the manifest, the final chains and the digests of the file up to
each of its parts.

`appendBatch_valid` says that a recording writer takes every batch of records that pass its size
check.
-/

namespace Yonder.Audit

open Lib Wire

/-! ## The writer -/

inductive WriterPhase where
  | initializing
  | recording
  | finalizing
  | finished
deriving DecidableEq, Repr

/-- The phase and everything written so far; the hasher has been fed exactly `contents`. -/
structure AuditWriter where
  phase : WriterPhase
  contents : Bytes
deriving DecidableEq

namespace AuditWriter

def writeBytes (w : AuditWriter) (bytes : Bytes) : AuditWriter :=
  { w with contents := w.contents ++ bytes }

/-- `run_initialize`. -/
def runInitialize (w : AuditWriter) (header : AuditContainerHeader) :
    Except AuditError AuditWriter :=
  if w.phase ≠ .initializing then .error (.invalidState "the header is already initialized")
  else .ok { w.writeBytes (AuditContainerHeader.codec.enc header) with phase := .recording }

/-- `validate_record_payload`. -/
def validateRecordPayload (r : Record) : Except AuditError Unit :=
  if maxRecordFrameLen - 1 < r.payload.length then
    .error (.invalidState "record payload exceeds the container frame bound")
  else if validateFrameLen r.type (r.payload.length + 1) then .ok ()
  else .error (.invalidState "record frame exceeds the container bound")

/-- `run_append`. -/
def runAppend (w : AuditWriter) (r : Record) : Except AuditError AuditWriter :=
  match w.phase with
  | .initializing => .error (.invalidState "records cannot be appended before the header")
  | .finished | .finalizing =>
    .error (.invalidState "records cannot be appended after finalization started")
  | .recording => do
      validateRecordPayload r
      return w.writeBytes r.encode

/-- `append_batch`: record after record; a record that is refused leaves those before it written. -/
def appendBatch : AuditWriter → List Record → Except AuditError Unit × AuditWriter
  | w, [] => (.ok (), w)
  | w, r :: rs =>
    match w.runAppend r with
    | .error e => (.error e, w)
    | .ok w' => appendBatch w' rs

section

variable (c : Crypto)

/-- `run_write_manifest_and_signatures`, with the digest of everything through the host signature. -/
def runWriteManifestAndSignatures (w : AuditWriter) (manifest : JointManifest)
    (controller host : Ed25519Signature) : Except AuditError (AuditWriter × Digest32) :=
  match manifest.encodePayload with
  | none => .error .protocol
  | some payload =>
    if w.phase ≠ .recording then
      .error (.invalidState "the manifest must be written before the seal and after the header")
    else
      let w' := ((w.writeBytes footerMagic).writeBytes (writePrefixed payload)).writeBytes
        (writePrefixed controller.1 ++ writePrefixed host.1)
      .ok ({ w' with phase := .finalizing }, c.sha256 w'.contents)

/-- `run_write_seal`, with the digest of everything through the seal. -/
def runWriteSeal (w : AuditWriter) (recordSeal : LocalRecordSeal) :
    Except AuditError (AuditWriter × Digest32) :=
  if w.phase ≠ .finalizing then
    .error (.invalidState "the seal must follow the manifest and both signatures")
  else
    let w' := w.writeBytes (writePrefixed (LocalRecordSeal.codec.enc recordSeal))
    .ok (w', c.sha256 w'.contents)

/-- `run_write_ledger_commit`: the commit, then the digest of everything before it. -/
def runWriteLedgerCommit (w : AuditWriter) (commit : LedgerCommit) :
    Except AuditError AuditWriter :=
  if w.phase ≠ .finalizing then .error (.invalidState "the ledger commit must follow the seal")
  else
    let w' := w.writeBytes (writePrefixed (LedgerCommit.codec.enc commit))
    .ok { w'.writeBytes (c.sha256 w'.contents).1 with phase := .finished }

end

theorem validateRecordPayload_valid {r : Record} (h : r.Valid) : validateRecordPayload r = .ok () := by
  have hlen : ¬ maxRecordFrameLen - 1 < r.payload.length := by
    have := h.length_lt
    show ¬ 1048576 - 1 < r.payload.length
    omega
  have hframe : validateFrameLen r.type (r.payload.length + 1) = true := h
  rw [validateRecordPayload, if_neg hlen, if_pos hframe]

/-- A batch of valid records is appended in order. -/
theorem appendBatch_valid (rs : List Record) (h : ∀ r ∈ rs, r.Valid) :
    ∀ contents, appendBatch ⟨.recording, contents⟩ rs =
      (.ok (), ⟨.recording, contents ++ encodeRecords rs⟩) := by
  induction rs with
  | nil => simp [appendBatch]
  | cons r rs ih =>
    intro contents
    have hr := validateRecordPayload_valid (h r List.mem_cons_self)
    have happend : runAppend ⟨.recording, contents⟩ r =
        .ok ⟨.recording, contents ++ r.encode⟩ := by
      simp [runAppend, hr, bind, Except.bind, pure, Except.pure, writeBytes]
    rw [appendBatch, happend, encodeRecords_cons, ← List.append_assoc]
    exact ih (fun x hx => h x (List.mem_cons_of_mem _ hx)) _

end AuditWriter

/-! ## The footer of a session -/

namespace AuditSession

variable (c : Crypto)

/-! The parts of the footer that follow the contents written before it. -/

variable (contents : Bytes) (m : JointManifest) (ownSignature peerSignature : Ed25519Signature)
  (sequence : UInt64) (previousRoot : Digest32)

def manifestPart (s : AuditSession) : Bytes :=
  let signatures := s.facts.fresh.byRole ownSignature peerSignature
  encodeManifestPart m signatures.1 signatures.2

def footerSeal (s : AuditSession) : LocalRecordSeal :=
  s.buildSeal c (c.sha256 (contents ++ s.manifestPart m ownSignature peerSignature))
    (c.sha256 (JointManifest.codec.enc m))

def sealedPart (s : AuditSession) : Bytes :=
  s.manifestPart m ownSignature peerSignature ++
    writePrefixed (LocalRecordSeal.codec.enc (s.footerSeal c contents m ownSignature peerSignature))

def footerCommit (s : AuditSession) : LedgerCommit :=
  s.buildLedgerCommit c sequence previousRoot (c.sha256 (JointManifest.codec.enc m))
    (c.sha256 (contents ++ s.sealedPart c contents m ownSignature peerSignature))

def committedPart (s : AuditSession) : Bytes :=
  s.sealedPart c contents m ownSignature peerSignature ++ writePrefixed (LedgerCommit.codec.enc
    (s.footerCommit c contents m ownSignature peerSignature sequence previousRoot))

/-- The whole footer: the committed part and its digest. -/
def footerBytes (s : AuditSession) : Bytes :=
  s.committedPart c contents m ownSignature peerSignature sequence previousRoot ++
    (c.sha256 (contents ++
      s.committedPart c contents m ownSignature peerSignature sequence previousRoot)).1

variable {c contents m ownSignature peerSignature sequence previousRoot}

end AuditSession

end Yonder.Audit
