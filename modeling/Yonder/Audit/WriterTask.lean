import Yonder.Audit.Recovery
import Yonder.Lib.Machine
import Yonder.Lib.Sink

/-!
# The writer task

The task owns the record file. It takes one request at a time, in any order, and every write and every
sync of the file can fail at any point. The phase refuses requests that come out of order, and after a
failure of the file every request is answered with that failure.

`Progress` is the order that a container has: the header, the record frames, the manifest with both
signatures, the seal, the ledger commit. The phases of the source do not tell a container with a seal
from one without, so a second seal is written, and a ledger commit before any seal. `process_cases` says
what a request does in every other situation; from it, a run keeps the shape of the file, refuses what
is out of order without a byte written, writes nothing after a failure and returns the digests of the
file exactly if no request of those two kinds occurs.
-/

namespace Yonder.Audit

open Lib Wire

/-- The errors that the task answers with. -/
inductive WriterError where
  | invalidState (message : String)
  | recordWriteFailed
  | recordSyncFailed
deriving DecidableEq, Repr

/-- `is_fatal`. -/
def WriterError.isFatal : WriterError → Bool
  | invalidState _ => false
  | recordWriteFailed => true
  | recordSyncFailed => true

/-- A request as `AuditWriter` builds it. A manifest of another version does not encode, and no request
is made of it. -/
inductive Request where
  | writeHeader (header : AuditContainerHeader)
  | append (record : Record)
  | sync
  | writeManifestAndSignatures (manifest : JointManifest) (controller host : Ed25519Signature)
      (version : manifest.formatVersion = auditFormatVersion)
  | writeSeal (recordSeal : LocalRecordSeal)
  | writeLedgerCommit (commit : LedgerCommit)

inductive Reply where
  | done
  | digest (d : Digest32)
  | error (e : WriterError)
deriving DecidableEq, Repr

def Reply.isOk : Reply → Bool
  | error _ => false
  | _ => true

def Reply.isFatal : Reply → Bool
  | error e => e.isFatal
  | _ => false

/-- The file with the hasher, the phase and the failure. The hasher has been fed what was confirmed. -/
structure WriterTask where
  sink : Sink UInt8
  phase : WriterPhase
  failed : Option WriterError

namespace WriterTask

def file (t : WriterTask) : Bytes := t.sink.accepted

/-- `write_bytes`, piece by piece, and what comes after if all of them were written. -/
def writing (t : WriterTask) (pieces : List Bytes) (next : WriterTask → Reply × WriterTask) :
    Reply × WriterTask :=
  match t.sink.writeAll pieces with
  | (true, sink) => next { t with sink := sink }
  | (false, sink) => (.error .recordWriteFailed, { t with sink := sink })

/-- `sync_file`. -/
def syncing (t : WriterTask) (next : WriterTask → Reply × WriterTask) : Reply × WriterTask :=
  match t.sink.flush with
  | (true, sink) => next { t with sink := sink }
  | (false, sink) => (.error .recordSyncFailed, { t with sink := sink })

def refuse (t : WriterTask) (message : String) : Reply × WriterTask :=
  (.error (.invalidState message), t)

/-- The two writes of `write_prefixed`. -/
def prefixedPieces (bytes : Bytes) : List Bytes := [beBytes 2 bytes.length, bytes]

/-- `run_initialize`. -/
def runInitialize (t : WriterTask) (header : AuditContainerHeader) : Reply × WriterTask :=
  if t.phase ≠ .initializing then t.refuse "the header is already initialized"
  else t.writing [AuditContainerHeader.codec.enc header] fun t =>
    t.syncing fun t => (.done, { t with phase := .recording })

/-- `run_append`. -/
def runAppend (t : WriterTask) (r : Record) : Reply × WriterTask :=
  match t.phase with
  | .initializing => t.refuse "records cannot be appended before the header"
  | .finished | .finalizing => t.refuse "records cannot be appended after finalization started"
  | .recording =>
    if maxRecordFrameLen - 1 < r.payload.length then
      t.refuse "record payload exceeds the container frame bound"
    else if validateFrameLen r.type (r.payload.length + 1) = false then
      t.refuse "record frame exceeds the container bound"
    else t.writing [beBytes 4 (r.payload.length + 1), [r.type.code], r.payload] fun t => (.done, t)

/-- `run_sync`. -/
def runSync (t : WriterTask) : Reply × WriterTask :=
  if t.phase = .initializing then t.refuse "nothing to sync before the header"
  else t.syncing fun t => (.done, t)

section

variable (c : Crypto)

/-- `run_write_manifest_and_signatures`. -/
def runWriteManifestAndSignatures (t : WriterTask) (manifest controller host : Bytes) :
    Reply × WriterTask :=
  if t.phase ≠ .recording then
    t.refuse "the manifest must be written before the seal and after the header"
  else
    t.writing (footerMagic :: (prefixedPieces manifest ++ (prefixedPieces controller ++
      prefixedPieces host))) fun t =>
      (.digest (c.sha256 t.sink.confirmed), { t with phase := .finalizing })

/-- `run_write_seal`. -/
def runWriteSeal (t : WriterTask) (recordSeal : Bytes) : Reply × WriterTask :=
  if t.phase ≠ .finalizing then t.refuse "the seal must follow the manifest and both signatures"
  else t.writing (prefixedPieces recordSeal) fun t => (.digest (c.sha256 t.sink.confirmed), t)

/-- `run_write_ledger_commit`. -/
def runWriteLedgerCommit (t : WriterTask) (commit : Bytes) : Reply × WriterTask :=
  if t.phase ≠ .finalizing then t.refuse "the ledger commit must follow the seal"
  else
    t.writing (prefixedPieces commit) fun t =>
      t.writing [(c.sha256 t.sink.confirmed).1] fun t =>
        t.syncing fun t => (.done, { t with phase := .finished })

def run (t : WriterTask) : Request → Reply × WriterTask
  | .writeHeader header => t.runInitialize header
  | .append r => t.runAppend r
  | .sync => t.runSync
  | .writeManifestAndSignatures manifest controller host _ =>
    t.runWriteManifestAndSignatures c (JointManifest.codec.enc manifest) controller.1 host.1
  | .writeSeal recordSeal => t.runWriteSeal c (LocalRecordSeal.codec.enc recordSeal)
  | .writeLedgerCommit commit => t.runWriteLedgerCommit c (LedgerCommit.codec.enc commit)

/-- One turn of the loop of `writer_task`. -/
def process (t : WriterTask) (request : Request) : Reply × WriterTask :=
  match t.failed with
  | some e => (.error e, t)
  | none =>
    match t.run c request with
    | (.error e, t) => (.error e, if e.isFatal then { t with failed := some e } else t)
    | (reply, t) => (reply, t)

end

end WriterTask

/-! ## The order of a container -/

/-- What a container holds so far. -/
inductive Progress where
  | nothing
  | header
  | manifest
  | sealed
  | committed
deriving DecidableEq, Repr

namespace Progress

/-- The progress after a request that is in order. -/
def next : Progress → Request → Option Progress
  | nothing, .writeHeader _ => some header
  | nothing, _ => none
  | header, .append _ => some header
  | header, .writeManifestAndSignatures .. => some manifest
  | manifest, .writeSeal _ => some sealed
  | sealed, .writeLedgerCommit _ => some committed
  | p, .sync => some p
  | _, _ => none

/-- The phase of the source for a progress: there is one for the container with a seal and without. -/
def phase : Progress → WriterPhase
  | nothing => .initializing
  | header => .recording
  | manifest => .finalizing
  | sealed => .finalizing
  | committed => .finished

end Progress

/-- The bytes of a container with some progress. -/
inductive ContainerShape (c : Crypto) : Progress → Bytes → Prop
  | nothing : ContainerShape c .nothing []
  | header (header : AuditContainerHeader) (records : List Record)
      (hvalid : ∀ record ∈ records, record.Valid) :
      ContainerShape c .header (AuditContainerHeader.codec.enc header ++ encodeRecords records)
  | manifest {front : Bytes} (hfront : ContainerShape c .header front) (m : JointManifest)
      (controller host : Ed25519Signature) (hversion : m.formatVersion = auditFormatVersion) :
      ContainerShape c .manifest (front ++ encodeManifestPart m controller host)
  | sealed {front : Bytes} (hfront : ContainerShape c .manifest front) (recordSeal : LocalRecordSeal) :
      ContainerShape c .sealed (front ++ writePrefixed (LocalRecordSeal.codec.enc recordSeal))
  | committed {front : Bytes} (hfront : ContainerShape c .sealed front) (commit : LedgerCommit) :
      ContainerShape c .committed (front ++ writePrefixed (LedgerCommit.codec.enc commit) ++
        (c.sha256 (front ++ writePrefixed (LedgerCommit.codec.enc commit))).1)

/-- A container: a header, record frames and a whole footer or none. -/
def WellFormed (c : Crypto) (bytes : Bytes) : Prop := ContainerShape c .header bytes ∨ ContainerShape c .committed bytes

/-- The beginning of a container. -/
def ContainerPrefix (c : Crypto) (bytes : Bytes) : Prop :=
  ∃ whole, WellFormed c whole ∧ bytes <+: whole

section

variable {c : Crypto}

theorem ContainerPrefix.mono {bytes bytes' : Bytes} (h : ContainerPrefix c bytes')
    (hpre : bytes <+: bytes') : ContainerPrefix c bytes := by
  obtain ⟨whole, hwhole, hbytes⟩ := h
  exact ⟨whole, hwhole, hpre.trans hbytes⟩

/-- A seal and a commit with which a container can be completed. -/
def plainSeal : LocalRecordSeal :=
  ⟨zeroHead, .controller, zeroHead, 0, (zeroHead, zeroHead, zeroHead, zeroHead), zeroHead, zeroHead,
    (FixedBytes.replicate 64 0)⟩

def plainCommit : LedgerCommit :=
  ⟨0, zeroHead, zeroHead, zeroHead, zeroHead, zeroHead, .normal, FixedBytes.replicate 64 0⟩

theorem ContainerShape.containerPrefix_sealed {bytes : Bytes} (h : ContainerShape c .sealed bytes) :
    ContainerPrefix c bytes := by
  refine ⟨_, .inr (.committed h plainCommit), ?_⟩
  rw [List.append_assoc]
  exact List.prefix_append _ _

theorem ContainerShape.containerPrefix_manifest {bytes : Bytes} (h : ContainerShape c .manifest bytes) :
    ContainerPrefix c bytes := by
  refine (ContainerShape.sealed h plainSeal).containerPrefix_sealed.mono ?_
  exact List.prefix_append _ _

/-- A container can be completed from every progress. -/
theorem ContainerShape.containerPrefix {p : Progress} {bytes : Bytes} (h : ContainerShape c p bytes) :
    ContainerPrefix c bytes := by
  cases p with
  | nothing =>
    cases h
    exact ⟨_, .inl (.header (plainContainerHeader 3) [] (by simp)), List.nil_prefix⟩
  | header => exact ⟨bytes, .inl h, List.prefix_rfl⟩
  | manifest => exact h.containerPrefix_manifest
  | sealed => exact h.containerPrefix_sealed
  | committed => exact ⟨bytes, .inr h, List.prefix_rfl⟩

end

/-! ## What a request does -/

/-- The task works, the hasher has been fed the file, and the file has the progress. -/
structure Working (c : Crypto) (p : Progress) (t : WriterTask) : Prop where
  unfailed : t.failed = none
  hashed : t.sink.confirmed = t.file
  shape : ContainerShape c p t.file
  phase : t.phase = p.phase

/-- What a request does to a task that works. -/
inductive Processed (c : Crypto) (p : Progress) (t : WriterTask) (request : Request) (reply : Reply)
    (t' : WriterTask) : Prop
  | refused (message : String) (hreply : reply = .error (.invalidState message)) (htask : t' = t)
  | finished (p' : Progress) (hnext : p.next request = some p') (hreply : reply.isOk = true)
      (hworking : Working c p' t') (hgrown : t.file <+: t'.file)
      (hdigest : ∀ d, reply = .digest d → d = c.sha256 t'.file)
  | broke (e : WriterError) (hnext : p.next request ≠ none) (hreply : reply = .error e)
      (hfatal : e.isFatal = true) (hfailed : t'.failed = some e) (hfile : ContainerPrefix c t'.file)

/-- A request that would write a second seal, or a ledger commit before the seal. -/
def SealSlip : Progress → Request → Prop
  | .sealed, .writeSeal _ => True
  | .manifest, .writeLedgerCommit _ => True
  | _, _ => False

namespace WriterTask

variable {c : Crypto} {p : Progress} {t : WriterTask}

/-- Writing the pieces either succeeds and leaves the file and the hasher with all of them, or breaks
off with a part of them in the file. -/
theorem writing_cases (pieces : List Bytes) (next : WriterTask → Reply × WriterTask)
    (hhashed : t.sink.confirmed = t.file) :
    (∃ t', t.writing pieces next = next t' ∧ t'.file = t.file ++ pieces.flatten ∧
      t'.sink.confirmed = t'.file ∧ t'.phase = t.phase ∧ t'.failed = t.failed) ∨
    ∃ t', t.writing pieces next = (.error .recordWriteFailed, t') ∧
      t'.file <+: t.file ++ pieces.flatten := by
  rw [writing]
  split
  · rename_i sink hwrite
    obtain ⟨haccepted, hconfirmed⟩ := Sink.writeAll_true hwrite
    refine .inl ⟨{ t with sink := sink }, rfl, haccepted, ?_, rfl, rfl⟩
    change sink.confirmed = sink.accepted
    rw [hconfirmed, haccepted, hhashed, file]
  · rename_i sink hwrite
    exact .inr ⟨{ t with sink := sink }, rfl, Sink.writeAll_le hwrite⟩

theorem syncing_cases (next : WriterTask → Reply × WriterTask) (hhashed : t.sink.confirmed = t.file) :
    (∃ t', t.syncing next = next t' ∧ t'.file = t.file ∧ t'.sink.confirmed = t'.file ∧
      t'.phase = t.phase ∧ t'.failed = t.failed) ∨
    ∃ t', t.syncing next = (.error .recordSyncFailed, t') ∧ t'.file = t.file := by
  rw [syncing]
  split
  · rename_i sink hflush
    obtain ⟨haccepted, hconfirmed⟩ := Sink.flush_eq hflush
    refine .inl ⟨{ t with sink := sink }, rfl, haccepted, ?_, rfl, rfl⟩
    change sink.confirmed = sink.accepted
    rw [hconfirmed, haccepted, hhashed, file]
  · rename_i sink hflush
    exact .inr ⟨{ t with sink := sink }, rfl, (Sink.flush_eq hflush).1⟩

theorem process_of_working (h : t.failed = none) (request : Request) :
    t.process c request = match t.run c request with
      | (.error e, t) => (.error e, if e.isFatal then { t with failed := some e } else t)
      | (reply, t) => (reply, t) := by
  rw [process, h]

theorem process_of_failed {e : WriterError} (h : t.failed = some e) (request : Request) :
    t.process c request = (.error e, t) := by
  rw [process, h]

/-- A request that its handler refuses. -/
theorem processed_refused {request : Request} (message : String) (h : t.failed = none)
    (hrun : t.run c request = t.refuse message) :
    Processed c p t request (t.process c request).1 (t.process c request).2 := by
  rw [process_of_working h, hrun]
  exact .refused message rfl rfl

/-- A request that is in order and whose handler fails. -/
theorem processed_broke {request : Request} {e : WriterError} {t' : WriterTask} (h : t.failed = none)
    (hnext : p.next request ≠ none) (hrun : t.run c request = (.error e, t'))
    (hfatal : e.isFatal = true) (hfile : ContainerPrefix c t'.file) :
    Processed c p t request (t.process c request).1 (t.process c request).2 := by
  rw [process_of_working h, hrun]
  refine .broke e hnext rfl hfatal ?_ ?_
  · simp only [hfatal, if_true]
  · simp only [hfatal, if_true]
    exact hfile

/-- A request that is in order and whose handler succeeds. -/
theorem processed_finished {request : Request} {reply : Reply} {t' : WriterTask} {p' : Progress}
    (h : t.failed = none) (hnext : p.next request = some p') (hrun : t.run c request = (reply, t'))
    (hreply : reply.isOk = true) (hworking : Working c p' t') (hgrown : t.file <+: t'.file)
    (hdigest : ∀ d, reply = .digest d → d = c.sha256 t'.file) :
    Processed c p t request (t.process c request).1 (t.process c request).2 := by
  cases reply with
  | error e => cases hreply
  | done =>
    rw [process_of_working h, hrun]
    exact .finished p' hnext rfl hworking hgrown hdigest
  | digest d =>
    rw [process_of_working h, hrun]
    exact .finished p' hnext rfl hworking hgrown hdigest

/-! Each handler in the progress where its request is in order. -/

theorem writeHeader_processed (h : Working c .nothing t) (header : AuditContainerHeader) :
    Processed c .nothing t (.writeHeader header) (t.process c (.writeHeader header)).1
      (t.process c (.writeHeader header)).2 := by
  have hfile : t.file = [] := by
    have hshape := h.shape
    generalize t.file = bytes at hshape ⊢
    cases hshape
    rfl
  have hshape : ContainerShape c .header (t.file ++ [AuditContainerHeader.codec.enc header].flatten) := by
    have := ContainerShape.header (c := c) header [] (by simp)
    simpa [hfile] using this
  have hphase : ¬ t.phase ≠ .initializing := not_not.2 h.phase
  have hrun : t.run c (.writeHeader header) =
      t.writing [AuditContainerHeader.codec.enc header] fun t =>
        t.syncing fun t => (.done, { t with phase := .recording }) := by
    rw [run, runInitialize, if_neg hphase]
  obtain ⟨t₁, hwrite, hfile₁, hhashed₁, -, hfailed₁⟩ | ⟨t₁, hwrite, hfile₁⟩ :=
    writing_cases [AuditContainerHeader.codec.enc header]
      (fun t => t.syncing fun t => (.done, { t with phase := .recording })) h.hashed
  · obtain ⟨t₂, hsync, hfile₂, hhashed₂, -, hfailed₂⟩ | ⟨t₂, hsync, hfile₂⟩ :=
      syncing_cases (fun t => (.done, { t with phase := .recording })) hhashed₁
    · refine processed_finished h.unfailed rfl (hrun.trans (hwrite.trans hsync)) rfl ?_ ?_ (by simp)
      · refine ⟨hfailed₂.trans (hfailed₁.trans h.unfailed), hhashed₂, ?_, rfl⟩
        change ContainerShape c .header t₂.file
        rw [hfile₂, hfile₁]
        exact hshape
      · rw [hfile]
        exact List.nil_prefix
    · refine processed_broke h.unfailed (by simp [Progress.next]) (hrun.trans (hwrite.trans hsync)) rfl ?_
      rw [hfile₂, hfile₁]
      exact hshape.containerPrefix
  · exact processed_broke h.unfailed (by simp [Progress.next]) (hrun.trans hwrite) rfl
      (hshape.containerPrefix.mono hfile₁)

/-- A handler that writes its pieces and answers. -/
theorem processed_of_writing {request : Request} (pieces : List Bytes) (reply : WriterTask → Reply)
    (p' : Progress) (h : Working c p t) (hnext : p.next request = some p')
    (hrun : t.run c request = t.writing pieces fun t => (reply t, { t with phase := p'.phase }))
    (hshape : ContainerShape c p' (t.file ++ pieces.flatten)) (hreply : ∀ t, (reply t).isOk = true)
    (hdigest : ∀ t : WriterTask, t.sink.confirmed = t.file → ∀ d, reply t = .digest d →
      d = c.sha256 t.file) :
    Processed c p t request (t.process c request).1 (t.process c request).2 := by
  obtain ⟨t₁, hwrite, hfile₁, hhashed₁, -, hfailed₁⟩ | ⟨t₁, hwrite, hfile₁⟩ :=
    writing_cases pieces (fun t => (reply t, { t with phase := p'.phase })) h.hashed
  · refine processed_finished h.unfailed hnext (hrun.trans hwrite) (hreply _) ?_ ?_
      (hdigest t₁ hhashed₁)
    · refine ⟨hfailed₁.trans h.unfailed, hhashed₁, ?_, rfl⟩
      change ContainerShape c p' t₁.file
      rw [hfile₁]
      exact hshape
    · change t.file <+: t₁.file
      rw [hfile₁]
      exact List.prefix_append _ _
  · refine processed_broke h.unfailed ?_ (hrun.trans hwrite) rfl (hshape.containerPrefix.mono hfile₁)
    rw [hnext]
    exact Option.some_ne_none _

theorem shape_append_record {bytes : Bytes} {r : Record} (h : ContainerShape c .header bytes) (hr : r.Valid) :
    ContainerShape c .header (bytes ++ r.encode) := by
  cases h with
  | header header records hvalid =>
    have hall : ∀ record ∈ records ++ [r], record.Valid := by
      intro record hmem
      rcases List.mem_append.1 hmem with hold | hnew
      · exact hvalid record hold
      · rw [List.mem_singleton.1 hnew]
        exact hr
    have := ContainerShape.header (c := c) header (records ++ [r]) hall
    rwa [encodeRecords_append, encodeRecords_cons, encodeRecords_nil, List.append_nil,
      ← List.append_assoc] at this

theorem append_processed (h : Working c .header t) (r : Record) :
    Processed c .header t (.append r) (t.process c (.append r)).1 (t.process c (.append r)).2 := by
  have hphase : t.phase = .recording := h.phase
  by_cases hlen : maxRecordFrameLen - 1 < r.payload.length
  · refine processed_refused "record payload exceeds the container frame bound" h.unfailed ?_
    rw [run, runAppend, hphase]
    exact if_pos hlen
  · by_cases hframe : validateFrameLen r.type (r.payload.length + 1) = false
    · refine processed_refused "record frame exceeds the container bound" h.unfailed ?_
      rw [run, runAppend, hphase]
      exact (if_neg hlen).trans (if_pos hframe)
    · have hvalid : r.Valid := eq_true_of_ne_false hframe
      have hpieces : [beBytes 4 (r.payload.length + 1), [r.type.code], r.payload].flatten = r.encode := by
        simp [Record.encode]
      refine processed_of_writing [beBytes 4 (r.payload.length + 1), [r.type.code], r.payload]
        (fun _ => .done) .header h rfl ?_ ?_ (fun _ => rfl) (by simp)
      · rw [run, runAppend, hphase]
        refine (if_neg hlen).trans ((if_neg hframe).trans ?_)
        -- the phase stays as it is
        rw [writing, writing]
        split <;> simp [Progress.phase, hphase]
      · rw [hpieces]
        exact shape_append_record h.shape hvalid

theorem sync_processed (h : Working c p t) (hp : p ≠ .nothing) :
    Processed c p t .sync (t.process c .sync).1 (t.process c .sync).2 := by
  have hphase : t.phase ≠ .initializing := by
    rw [h.phase]
    cases p <;> simp_all [Progress.phase]
  have hnext : p.next .sync = some p := by
    cases p <;> simp_all [Progress.next]
  have hrun : t.run c .sync = t.syncing fun t => (.done, t) := by
    rw [run, runSync, if_neg hphase]
  obtain ⟨t₁, hsync, hfile₁, hhashed₁, hphase₁, hfailed₁⟩ | ⟨t₁, hsync, hfile₁⟩ :=
    syncing_cases (fun t => (.done, t)) h.hashed
  · refine processed_finished h.unfailed hnext (hrun.trans hsync) rfl ?_ ?_ (by simp)
    · refine ⟨hfailed₁.trans h.unfailed, hhashed₁, ?_, hphase₁.trans h.phase⟩
      rw [hfile₁]
      exact h.shape
    · rw [hfile₁]
  · refine processed_broke h.unfailed ?_ (hrun.trans hsync) rfl ?_
    · rw [hnext]
      exact Option.some_ne_none _
    · rw [hfile₁]
      exact h.shape.containerPrefix

theorem writeManifestAndSignatures_processed (h : Working c .header t) (m : JointManifest)
    (controller host : Ed25519Signature) (hversion : m.formatVersion = auditFormatVersion) :
    Processed c .header t (.writeManifestAndSignatures m controller host hversion)
      (t.process c (.writeManifestAndSignatures m controller host hversion)).1
      (t.process c (.writeManifestAndSignatures m controller host hversion)).2 := by
  have hphase : ¬ t.phase ≠ .recording := not_not.2 h.phase
  refine processed_of_writing (footerMagic :: (prefixedPieces (JointManifest.codec.enc m) ++
    (prefixedPieces controller.1 ++ prefixedPieces host.1))) (fun t => .digest (c.sha256 t.sink.confirmed))
    .manifest h rfl ?_ ?_ (fun _ => rfl) ?_
  · rw [run, runWriteManifestAndSignatures, if_neg hphase]
    rfl
  · have hpieces : (footerMagic :: (prefixedPieces (JointManifest.codec.enc m) ++
        (prefixedPieces controller.1 ++ prefixedPieces host.1))).flatten =
        encodeManifestPart m controller host := by
      simp [prefixedPieces, encodeManifestPart, writePrefixed]
    rw [hpieces]
    exact .manifest h.shape m controller host hversion
  · rintro t' hhashed d ⟨⟩
    rw [hhashed]

theorem flatten_prefixedPieces (bytes : Bytes) : (prefixedPieces bytes).flatten = writePrefixed bytes := by
  simp [prefixedPieces, writePrefixed]

theorem writeSeal_processed (h : Working c .manifest t) (recordSeal : LocalRecordSeal) :
    Processed c .manifest t (.writeSeal recordSeal) (t.process c (.writeSeal recordSeal)).1
      (t.process c (.writeSeal recordSeal)).2 := by
  have hphase : ¬ t.phase ≠ .finalizing := not_not.2 h.phase
  refine processed_of_writing (prefixedPieces (LocalRecordSeal.codec.enc recordSeal))
    (fun t => .digest (c.sha256 t.sink.confirmed)) .sealed h rfl ?_ ?_ (fun _ => rfl) ?_
  · rw [run, runWriteSeal, if_neg hphase, writing, writing]
    split
    · rw [show Progress.sealed.phase = t.phase from h.phase.symm]
    · rfl
  · rw [flatten_prefixedPieces]
    exact .sealed h.shape recordSeal
  · rintro t' hhashed d ⟨⟩
    rw [hhashed]

theorem writeLedgerCommit_processed (h : Working c .sealed t) (commit : LedgerCommit) :
    Processed c .sealed t (.writeLedgerCommit commit) (t.process c (.writeLedgerCommit commit)).1
      (t.process c (.writeLedgerCommit commit)).2 := by
  have hphase : ¬ t.phase ≠ .finalizing := not_not.2 h.phase
  have hnext : Progress.sealed.next (.writeLedgerCommit commit) ≠ none := by simp [Progress.next]
  have hshape := ContainerShape.committed h.shape commit
  have hrun : t.run c (.writeLedgerCommit commit) =
      t.writing (prefixedPieces (LedgerCommit.codec.enc commit)) fun t =>
        t.writing [(c.sha256 t.sink.confirmed).1] fun t =>
          t.syncing fun t => (.done, { t with phase := .finished }) := by
    rw [run, runWriteLedgerCommit, if_neg hphase]
  obtain ⟨t₁, hcommit, hfile₁, hhashed₁, -, hfailed₁⟩ | ⟨t₁, hcommit, hfile₁⟩ :=
    writing_cases (prefixedPieces (LedgerCommit.codec.enc commit)) (fun t =>
      t.writing [(c.sha256 t.sink.confirmed).1] fun t =>
        t.syncing fun t => (.done, { t with phase := .finished })) h.hashed
  · rw [flatten_prefixedPieces] at hfile₁
    -- the digest is of what the hasher was fed, which is the file through the commit
    have htarget : t₁.file ++ [(c.sha256 t₁.sink.confirmed).1].flatten =
        t.file ++ writePrefixed (LedgerCommit.codec.enc commit) ++
          (c.sha256 (t.file ++ writePrefixed (LedgerCommit.codec.enc commit))).1 := by
      rw [hhashed₁, hfile₁]
      simp
    obtain ⟨t₂, hdigest, hfile₂, hhashed₂, -, hfailed₂⟩ | ⟨t₂, hdigest, hfile₂⟩ :=
      writing_cases [(c.sha256 t₁.sink.confirmed).1] (fun t =>
        t.syncing fun t => (.done, { t with phase := .finished })) hhashed₁
    · rw [htarget] at hfile₂
      obtain ⟨t₃, hsync, hfile₃, hhashed₃, -, hfailed₃⟩ | ⟨t₃, hsync, hfile₃⟩ :=
        syncing_cases (fun t => (.done, { t with phase := .finished })) hhashed₂
      · refine processed_finished h.unfailed rfl
          (hrun.trans (hcommit.trans (hdigest.trans hsync))) rfl ?_ ?_ (by simp)
        · refine ⟨hfailed₃.trans (hfailed₂.trans (hfailed₁.trans h.unfailed)), hhashed₃, ?_, rfl⟩
          change ContainerShape c .committed t₃.file
          rw [hfile₃, hfile₂]
          exact hshape
        · change t.file <+: t₃.file
          rw [hfile₃, hfile₂, List.append_assoc]
          exact List.prefix_append _ _
      · refine processed_broke h.unfailed hnext (hrun.trans (hcommit.trans (hdigest.trans hsync))) rfl ?_
        rw [hfile₃, hfile₂]
        exact hshape.containerPrefix
    · refine processed_broke h.unfailed hnext (hrun.trans (hcommit.trans hdigest)) rfl ?_
      rw [htarget] at hfile₂
      exact hshape.containerPrefix.mono hfile₂
  · refine processed_broke h.unfailed hnext (hrun.trans hcommit) rfl ?_
    rw [flatten_prefixedPieces] at hfile₁
    exact hshape.containerPrefix.mono (hfile₁.trans (List.prefix_append _ _))

/-- What a request does that is not one of the two that the phases miss. -/
theorem process_cases (h : Working c p t) (request : Request) (hslip : ¬ SealSlip p request) :
    Processed c p t request (t.process c request).1 (t.process c request).2 := by
  have hphase := h.phase
  cases request with
  | writeHeader header =>
    cases p with
    | nothing => exact writeHeader_processed h header
    | _ =>
      refine processed_refused "the header is already initialized" h.unfailed ?_
      rw [run, runInitialize, hphase]
      exact if_pos (by simp [Progress.phase])
  | append r =>
    cases p with
    | nothing =>
      refine processed_refused "records cannot be appended before the header" h.unfailed ?_
      rw [run, runAppend, hphase]
      rfl
    | header => exact append_processed h r
    | _ =>
      refine processed_refused "records cannot be appended after finalization started" h.unfailed ?_
      rw [run, runAppend, hphase]
      rfl
  | sync =>
    cases p with
    | nothing =>
      refine processed_refused "nothing to sync before the header" h.unfailed ?_
      rw [run, runSync, hphase]
      rfl
    | _ => exact sync_processed h (by simp)
  | writeManifestAndSignatures m controller host hversion =>
    cases p with
    | header => exact writeManifestAndSignatures_processed h m controller host hversion
    | _ =>
      refine processed_refused "the manifest must be written before the seal and after the header" h.unfailed ?_
      rw [run, runWriteManifestAndSignatures, hphase]
      exact if_pos (by simp [Progress.phase])
  | writeSeal recordSeal =>
    cases p with
    | manifest => exact writeSeal_processed h recordSeal
    | sealed => exact absurd trivial hslip
    | _ =>
      refine processed_refused "the seal must follow the manifest and both signatures" h.unfailed ?_
      rw [run, runWriteSeal, hphase]
      exact if_pos (by simp [Progress.phase])
  | writeLedgerCommit commit =>
    cases p with
    | manifest => exact absurd trivial hslip
    | sealed => exact writeLedgerCommit_processed h commit
    | _ =>
      refine processed_refused "the ledger commit must follow the seal" h.unfailed ?_
      rw [run, runWriteLedgerCommit, hphase]
      exact if_pos (by simp [Progress.phase])

/-- A second seal, and a commit before the seal, pass the check of the phase. -/
theorem process_slip (h : Working c p t) {request : Request} (hslip : SealSlip p request)
    (message : String) : (t.process c request).1 ≠ .error (.invalidState message) := by
  have hphase : ¬ t.phase ≠ .finalizing := by
    rw [h.phase]
    cases p <;> simp_all [SealSlip, Progress.phase]
  have hrun : ∀ reply t', t.run c request = (reply, t') → reply ≠ .error (.invalidState message) := by
    intro reply t' hreply
    cases request with
    | writeSeal recordSeal =>
      rw [run, runWriteSeal, if_neg hphase, writing] at hreply
      split at hreply <;> cases hreply <;> simp
    | writeLedgerCommit commit =>
      rw [run, runWriteLedgerCommit, if_neg hphase, writing] at hreply
      split at hreply
      · rw [writing] at hreply
        split at hreply
        · rw [syncing] at hreply
          split at hreply <;> cases hreply <;> simp
        · cases hreply
          simp
      · cases hreply
        simp
    | _ => cases p <;> exact hslip.elim
  rw [process_of_working h.unfailed]
  have := hrun (t.run c request).1 (t.run c request).2 rfl
  split
  · rename_i e t' heq
    rw [heq] at this
    exact this
  · rename_i reply t' _ heq
    rw [heq] at this
    exact this

end WriterTask

/-! ## The writer of a session

With a file that does not fail, the task is the `AuditWriter` of the session model. -/

/-- The request as a call of the session's writer. -/
def AuditWriter.handle (c : Crypto) (w : AuditWriter) : Request → Except AuditError (AuditWriter × Reply)
  | .writeHeader header => (w.runInitialize header).map (·, .done)
  | .append r => (w.runAppend r).map (·, .done)
  | .sync =>
    if w.phase = .initializing then .error (.invalidState "nothing to sync before the header")
    else .ok (w, .done)
  | .writeManifestAndSignatures manifest controller host _ =>
    (w.runWriteManifestAndSignatures c manifest controller host).map fun result =>
      (result.1, .digest result.2)
  | .writeSeal recordSeal => (w.runWriteSeal c recordSeal).map fun result => (result.1, .digest result.2)
  | .writeLedgerCommit commit => (w.runWriteLedgerCommit c commit).map (·, .done)

/-- The session's writer after a request; one that is refused changes nothing. -/
def AuditWriter.after (c : Crypto) (w : AuditWriter) (request : Request) : AuditWriter :=
  (w.handle c request).toOption.elim w Prod.fst

/-- The task of a writer whose file does not fail. -/
def AuditWriter.toTask (w : AuditWriter) : WriterTask := ⟨⟨w.contents, w.contents, []⟩, w.phase, none⟩

namespace WriterTask

variable {c : Crypto} (w : AuditWriter)

theorem toTask_phase : w.toTask.phase = w.phase := rfl

theorem writing_toTask (pieces : List Bytes) (next : WriterTask → Reply × WriterTask) :
    w.toTask.writing pieces next = next (w.writeBytes pieces.flatten).toTask := by
  rw [writing, Sink.writeAll_reliable pieces _ rfl]
  rfl

theorem syncing_toTask (next : WriterTask → Reply × WriterTask) :
    w.toTask.syncing next = next w.toTask := rfl

/-- What the task answers and becomes, given what the session's writer does. -/
def Follows (result : Reply × WriterTask) : Except AuditError (AuditWriter × Reply) → Prop
  | .ok (w', reply) => reply.isOk = true ∧ result = (reply, w'.toTask)
  | .error e => ∃ message, e = .invalidState message ∧ result = w.toTask.refuse message

/-- Every request on a task whose file does not fail does what the session's writer does. -/
theorem run_follows (request : Request) : Follows w (w.toTask.run c request) (w.handle c request) := by
  cases request with
  | writeHeader header =>
    simp only [run, runInitialize, AuditWriter.handle, AuditWriter.runInitialize, writing_toTask,
      syncing_toTask, toTask_phase]
    split_ifs
    · exact ⟨_, rfl, rfl⟩
    · exact ⟨rfl, by simp [AuditWriter.toTask]⟩
  | append r =>
    simp only [run, runAppend, AuditWriter.handle, AuditWriter.runAppend, toTask_phase,
      AuditWriter.validateRecordPayload, writing_toTask]
    cases w.phase with
    | recording =>
      by_cases hlen : maxRecordFrameLen - 1 < r.payload.length
      · simp only [if_pos hlen]
        exact ⟨_, rfl, rfl⟩
      · simp only [if_neg hlen]
        cases validateFrameLen r.type (r.payload.length + 1)
        · exact ⟨_, rfl, rfl⟩
        · exact ⟨rfl, by simp [Record.encode]⟩
    | _ => exact ⟨_, rfl, rfl⟩
  | sync =>
    simp only [run, runSync, AuditWriter.handle, syncing_toTask, toTask_phase]
    split_ifs with hphase
    · exact ⟨_, rfl, if_pos hphase⟩
    · exact ⟨rfl, if_neg hphase⟩
  | writeManifestAndSignatures m controller host hversion =>
    have hencode : m.encodePayload = some (JointManifest.codec.enc m) := by
      rw [JointManifest.encodePayload, if_pos hversion]
    simp only [run, runWriteManifestAndSignatures, AuditWriter.handle,
      AuditWriter.runWriteManifestAndSignatures, hencode, writing_toTask, toTask_phase]
    split_ifs
    · exact ⟨_, rfl, rfl⟩
    · exact ⟨rfl, by simp [AuditWriter.toTask, AuditWriter.writeBytes, prefixedPieces, writePrefixed]⟩
  | writeSeal recordSeal =>
    simp only [run, runWriteSeal, AuditWriter.handle, AuditWriter.runWriteSeal, writing_toTask,
      toTask_phase, flatten_prefixedPieces]
    split_ifs
    · exact ⟨_, rfl, rfl⟩
    · exact ⟨rfl, rfl⟩
  | writeLedgerCommit commit =>
    simp only [run, runWriteLedgerCommit, AuditWriter.handle, AuditWriter.runWriteLedgerCommit,
      writing_toTask, syncing_toTask, toTask_phase, flatten_prefixedPieces, List.flatten_singleton]
    split_ifs
    · exact ⟨_, rfl, rfl⟩
    · exact ⟨rfl, rfl⟩

theorem process_toTask (request : Request) :
    (w.toTask.process c request).2 = (w.after c request).toTask := by
  have hrun := run_follows (c := c) w request
  rw [process_of_working rfl, AuditWriter.after]
  rcases hcall : w.handle c request with e | ⟨w', reply⟩ <;> rw [hcall] at hrun
  · obtain ⟨message, -, hrefused⟩ := hrun
    rw [hrefused]
    rfl
  · obtain ⟨hok, hdone⟩ := hrun
    rw [hdone]
    cases reply with
    | error e => cases hok
    | _ => rfl

/-- Any requests on a task whose file does not fail leave the task of the session's writer. -/
theorem requests_follow (requests : List Request) :
    requests.foldl (fun t r => (t.process c r).2) w.toTask =
      (requests.foldl (AuditWriter.after c) w).toTask :=
  List.foldl_hom _ process_toTask

end WriterTask

/-! ## Whole runs -/

/-- A request with its reply and the file before and after it. -/
structure Answered where
  request : Request
  reply : Reply
  before : Bytes
  after : Bytes

/-- The task with what it has done, the newest request first. -/
structure Watched where
  task : WriterTask
  log : List Answered

namespace Watched

/-- How far the requests that succeeded have come. -/
def progress : List Answered → Progress
  | [] => .nothing
  | e :: older =>
    if e.reply.isOk then ((progress older).next e.request).getD (progress older) else progress older

/-- No request has been answered with a fatal error. -/
def healthy : List Answered → Bool
  | [] => true
  | e :: older => !e.reply.isFatal && healthy older

def start : Watched := ⟨⟨⟨[], [], []⟩, .initializing, none⟩, []⟩

/-- One request, with the outcomes of the calls of the file that it makes. -/
def step (c : Crypto) (σ : Watched) (action : Request × List Outcome) : Option Watched :=
  let t := { σ.task with sink := { σ.task.sink with outcomes := action.2 } }
  let result := t.process c action.1
  some ⟨result.2, ⟨action.1, result.1, t.file, result.2.file⟩ :: σ.log⟩

/-- A request that is out of order is refused and writes nothing, nothing is written after a fatal
error, and a digest is that of the file. -/
structure AnsweredGood (c : Crypto) (older : List Answered) (e : Answered) : Prop where
  order : healthy older = true → (progress older).next e.request = none →
    (∃ message, e.reply = .error (.invalidState message)) ∧ e.after = e.before
  quiet : healthy older = false → e.after = e.before
  digest : ∀ d, e.reply = .digest d → d = c.sha256 e.after

def LogGood (c : Crypto) : List Answered → Prop
  | [] => True
  | e :: older => AnsweredGood c older e ∧ LogGood c older

/-- The file is the beginning of a container and every request was treated as it should. -/
def Good (c : Crypto) (σ : Watched) : Prop := ContainerPrefix c σ.task.file ∧ LogGood c σ.log

/-- The task works and is not asked for a second seal, nor for a commit before the seal. -/
def Orderly (σ : Watched) (action : Request × List Outcome) : Prop :=
  healthy σ.log = true → ¬ SealSlip (progress σ.log) action.1

/-- The invariant: the log is good, and the task either works with the progress of the log or has failed
with the beginning of a container in the file. -/
structure Inv (c : Crypto) (σ : Watched) : Prop where
  log : LogGood c σ.log
  working : healthy σ.log = true → Working c (progress σ.log) σ.task
  failed : healthy σ.log = false → (∃ e, σ.task.failed = some e ∧ e.isFatal = true) ∧
    ContainerPrefix c σ.task.file

variable {c : Crypto}

theorem inv_start : Inv c start where
  log := trivial
  working := fun _ => ⟨rfl, rfl, .nothing, rfl⟩
  failed := fun h => by cases h

theorem Inv.good {σ : Watched} (h : Inv c σ) : Good c σ := by
  refine ⟨?_, h.log⟩
  cases hhealthy : healthy σ.log with
  | true => exact (h.working hhealthy).shape.containerPrefix
  | false => exact (h.failed hhealthy).2

/-- The outcomes to come do not matter for whether a task works. -/
theorem working_outcomes {p : Progress} {t : WriterTask} (h : Working c p t) (outcomes : List Outcome) :
    Working c p { t with sink := { t.sink with outcomes := outcomes } } :=
  ⟨h.unfailed, h.hashed, h.shape, h.phase⟩

theorem Inv.step {σ τ : Watched} {action : Request × List Outcome} (h : Inv c σ)
    (hstep : step c σ action = some τ) (horderly : Orderly σ action) : Inv c τ := by
  obtain ⟨request, outcomes⟩ := action
  cases hstep
  cases hhealthy : healthy σ.log with
  | true =>
    have hworking := working_outcomes (h.working hhealthy) outcomes
    have hprocessed := WriterTask.process_cases hworking request (horderly hhealthy)
    generalize WriterTask.process c { σ.task with sink := { σ.task.sink with outcomes := outcomes } }
      request = result at hprocessed
    obtain ⟨reply, t'⟩ := result
    cases hprocessed with
    | refused message hreply htask =>
      obtain rfl : reply = _ := hreply
      obtain rfl : t' = _ := htask
      have hhealthy' : healthy (⟨request, .error (.invalidState message), σ.task.file,
          σ.task.file⟩ :: σ.log) = true := by
        simp [healthy, hhealthy, Reply.isFatal, WriterError.isFatal]
      refine ⟨⟨⟨fun _ _ => ⟨⟨message, rfl⟩, rfl⟩, fun _ => rfl, by simp⟩, h.log⟩, fun _ => hworking,
        fun hfailed => ?_⟩
      exact absurd (hfailed.symm.trans hhealthy') (by simp)
    | finished p' hnext hreply hworking' hgrown hdigest =>
      have hprogress : progress (⟨request, reply, σ.task.file, t'.file⟩ :: σ.log) = p' := by
        simp only [progress]
        rw [if_pos hreply, hnext]
        rfl
      refine ⟨⟨⟨fun _ hnone => ?_, fun hfailed => ?_, hdigest⟩, h.log⟩, fun _ => ?_, fun hfailed => ?_⟩
      · rw [hnext] at hnone
        cases hnone
      · rw [hhealthy] at hfailed
        cases hfailed
      · exact hprogress ▸ hworking'
      · have : reply.isFatal = false := by cases reply <;> simp_all [Reply.isOk, Reply.isFatal]
        simp [healthy, hhealthy, this] at hfailed
    | broke e hnext hreply hfatal hfailed hfile =>
      obtain rfl : reply = _ := hreply
      refine ⟨⟨⟨fun _ hnone => absurd hnone hnext, fun hbad => ?_, by simp⟩, h.log⟩, fun hbad => ?_,
        fun _ => ⟨⟨e, hfailed, hfatal⟩, hfile⟩⟩
      · rw [hhealthy] at hbad
        cases hbad
      · simp [healthy, Reply.isFatal, hfatal] at hbad
  | false =>
    obtain ⟨⟨e, hfailed, hfatal⟩, hfile⟩ := h.failed hhealthy
    have hprocess := WriterTask.process_of_failed (c := c)
      (t := { σ.task with sink := { σ.task.sink with outcomes := outcomes } }) hfailed request
    simp only [hprocess]
    refine ⟨⟨⟨fun hbad => ?_, fun _ => rfl, by simp⟩, h.log⟩, fun hbad => ?_,
      fun _ => ⟨⟨e, hfailed, hfatal⟩, hfile⟩⟩
    · rw [hhealthy] at hbad
      cases hbad
    · simp [healthy, hhealthy] at hbad

/-- A request that the phases miss is out of order and not refused. -/
theorem Inv.break {σ τ : Watched} {action : Request × List Outcome} (h : Inv c σ)
    (hstep : Watched.step c σ action = some τ) (horderly : ¬ Orderly σ action) : ¬ Good c τ := by
  obtain ⟨request, outcomes⟩ := action
  rw [Orderly, Classical.not_imp, not_not] at horderly
  obtain ⟨hhealthy, hslip⟩ := horderly
  have hnext : (progress σ.log).next request = none := by
    generalize progress σ.log = p at hslip
    cases p <;> cases request <;> simp_all [SealSlip, Progress.next]
  intro hgood
  cases hstep
  obtain ⟨⟨message, hreply⟩, -⟩ := hgood.2.1.order hhealthy hnext
  exact WriterTask.process_slip (working_outcomes (h.working hhealthy) outcomes) hslip message hreply

theorem run_total (actions : List (Request × List Outcome)) :
    ∀ σ, ∃ τ, Machine.run (Watched.step c) σ actions = some τ := by
  induction actions with
  | nil => exact fun σ => ⟨σ, rfl⟩
  | cons action actions ih =>
    intro σ
    obtain ⟨τ, hrun⟩ := ih _
    exact ⟨τ, Machine.run_cons.2 ⟨_, rfl, hrun⟩⟩

/-- For every sequence of requests and every failure of the file, the file stays the beginning of a
container, requests out of order are refused without a byte written, nothing is written after a fatal
error and the digests are those of the file, exactly if no working task is asked for a second seal or
for a ledger commit before the seal. -/
theorem writer_good_iff_orderly (c : Crypto) (actions : List (Request × List Outcome)) :
    Machine.Throughout (Watched.step c) (Good c) start actions ↔
      Machine.Allowed (Watched.step c) Orderly start actions := by
  obtain ⟨τ, hrun⟩ := run_total (c := c) actions start
  exact Machine.throughout_iff_allowed (Inv c) (fun σ h => h.good)
    (fun σ action τ h hstep horderly => h.step hstep horderly)
    (fun σ action τ h hstep horderly => h.break hstep horderly) inv_start hrun

/-- The requests of a container up to the manifest. -/
def untilManifest : List (Request × List Outcome) :=
  [(.writeHeader (plainContainerHeader 3), []),
    (.writeManifestAndSignatures plainManifest (FixedBytes.replicate 64 0) (FixedBytes.replicate 64 0) rfl,
      [])]

/-- A second seal is written and answered with a digest, and so is a commit before any seal. -/
theorem second_seal_written :
    (∃ σ d, Machine.run (Watched.step .transparent) start (untilManifest ++
        [(.writeSeal plainSeal, []), (.writeSeal plainSeal, [])]) = some σ ∧
      (σ.log.map (·.reply)).head? = some (.digest d) ∧ progress σ.log.tail = .sealed ∧
      Progress.sealed.next (.writeSeal plainSeal) = none) ∧
    ∃ σ, Machine.run (Watched.step .transparent) start (untilManifest ++
        [(.writeLedgerCommit plainCommit, [])]) = some σ ∧
      (σ.log.map (·.reply)).head? = some .done ∧ progress σ.log.tail = .manifest ∧
      Progress.manifest.next (.writeLedgerCommit plainCommit) = none :=
  ⟨⟨_, _, rfl, rfl, rfl, rfl⟩, _, rfl, rfl, rfl, rfl⟩

end Watched

end Yonder.Audit
