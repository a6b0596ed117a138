import Yonder.Wire.FileTransferFrame

/-!
# The files of a transfer

What a side ends with, the failures of the file-system layer with the code each is reported under, the
source that is read in blocks up to the size it had when it was opened, and the private file that is
written, hashed and verified in lock-step.
-/

namespace Yonder.Transfer

open Lib Wire

/-- `TransferOutcome`. -/
inductive TransferOutcome where
  | committed (bytes : Nat)
  | committedUnconfirmed (bytes : Nat)
  | commitStatusUnknown (bytes : Nat)
  | auditFailed (bytes : Nat)
  | auditFailedBeforeCommit
  | cancelled
  | failed (code : FileTransferErrorCode)
deriving DecidableEq, Repr

/-- The audit failed, with or without a commit. -/
def TransferOutcome.isAuditFailure : TransferOutcome → Bool
  | .auditFailed _ => true
  | .auditFailedBeforeCommit => true
  | _ => false

/-- `FileSemanticsError`, without the operating system's error inside. -/
inductive FileSemanticsError where
  | sourceNotFound
  | sourceNotRegularFile
  | destinationExists
  | destinationParentNotFound
  | destinationNotDirectory
  | permissionDenied
  | noSpace
  | fileTooLargeForPlatform
  | readFailed
  | writeFailed
  | sizeMismatch (declared received : Nat)
  | digestMismatch
  | sourceChanged
  | commitFailed
  | invalidFileName
  | invalidRequest
  | invalidPathEncoding
  | pathTooLong
  | baseDirectoryUnavailable
  | tempFileCreateFailed
  | temporaryCleanupFailed
  | io
deriving DecidableEq, Repr

/-- `wire_code`: the code the peer is told, if it is told. -/
def FileSemanticsError.wireCode : FileSemanticsError → Option FileTransferErrorCode
  | sourceNotFound => some .sourceNotFound
  | sourceNotRegularFile => some .sourceNotRegularFile
  | destinationExists => some .destinationExists
  | destinationParentNotFound => some .destinationParentNotFound
  | destinationNotDirectory => some .destinationNotDirectory
  | permissionDenied => some .permissionDenied
  | noSpace => some .noSpace
  | fileTooLargeForPlatform => some .fileTooLargeForPlatform
  | readFailed => some .readFailed
  | writeFailed => some .writeFailed
  | sizeMismatch .. => some .sizeMismatch
  | digestMismatch => some .digestMismatch
  | sourceChanged => some .sourceChanged
  | commitFailed => some .commitFailed
  | invalidFileName => some .invalidFileName
  | invalidRequest => some .invalidRequest
  | invalidPathEncoding => some .invalidPathEncoding
  | pathTooLong => some .pathTooLong
  | baseDirectoryUnavailable => none
  | tempFileCreateFailed => none
  | temporaryCleanupFailed => none
  | io => none

def chunkSize : Nat := 64 * 1024

/-- An opened source: the size it had when it was opened, and the bytes read so far. -/
structure Source where
  size : UInt64
  content : Bytes

namespace Source

/-- `bytes_read`. -/
def bytesRead (s : Source) : Nat := s.content.length

/-- What a read of the file gives, and what `recheck_source` says if it gives nothing. -/
structure FileRead where
  data : Except FileSemanticsError Bytes := .ok []
  recheck : Option FileSemanticsError := none

/-- The bytes asked for by `read_block`. -/
def want (s : Source) : Nat := min (s.size.toNat - s.bytesRead) (min maxDataLen chunkSize)

/-- `read_block`; the empty block means that all of the size was read. -/
def readBlock (s : Source) (file : FileRead) : Except FileSemanticsError (Source × Bytes) :=
  if s.want = 0 then .ok (s, [])
  else
    match file.data with
    | .error error => .error error
    | .ok data =>
      let block := data.take s.want
      if block = [] then
        match file.recheck with
        | some error => .error error
        | none => .error (.sizeMismatch s.size.toNat s.bytesRead)
      else .ok ({ s with content := s.content ++ block }, block)

/-- A block is read once, and fits in a `Data`. -/
theorem readBlock_ok {s s' : Source} {file : FileRead} {block : Bytes}
    (h : s.readBlock file = .ok (s', block)) :
    s'.content = s.content ++ block ∧ s'.size = s.size ∧ block.length ≤ maxDataLen := by
  unfold readBlock at h
  split at h
  case isTrue =>
    cases h
    exact ⟨(List.append_nil _).symm, rfl, Nat.zero_le _⟩
  case isFalse =>
    split at h
    case h_1 => cases h
    case h_2 data =>
      dsimp only at h
      split at h
      case isTrue => split at h <;> cases h
      case isFalse =>
        cases h
        refine ⟨rfl, rfl, (List.length_take_le _ _).trans ?_⟩
        exact (Nat.min_le_right _ _).trans (Nat.min_le_left _ _)

end Source

/-- The private file: what was written to it, and what was hashed. -/
structure TempFile where
  content : Bytes := []
  written : Nat := 0
  hashed : Bytes := []

namespace TempFile

/-- `write_block_async` that did not fail. -/
def writeBlock (t : TempFile) (block : Bytes) : TempFile where
  content := t.content ++ block
  written := t.written + block.length
  hashed := t.hashed ++ block

/-- `verify_finish` of the sealed file. -/
def verifyFinish (sha : Bytes → Sha256Digest) (t : TempFile) (declaredSize : UInt64)
    (declaredDigest : Sha256Digest) : Except FileSemanticsError Unit :=
  if t.written ≠ declaredSize.toNat then .error (.sizeMismatch declaredSize.toNat t.written)
  else if sha t.hashed ≠ declaredDigest then .error .digestMismatch
  else .ok ()

/-- The three views of the file agree. -/
structure Consistent (t : TempFile) : Prop where
  written : t.written = t.content.length
  hashed : t.hashed = t.content

theorem consistent_new : Consistent {} := ⟨rfl, rfl⟩

theorem Consistent.writeBlock {t : TempFile} (h : t.Consistent) (block : Bytes) :
    (t.writeBlock block).Consistent where
  written := by
    simp only [TempFile.writeBlock, List.length_append, h.written]
  hashed := by
    simp only [TempFile.writeBlock, h.hashed]

end TempFile

end Yonder.Transfer
