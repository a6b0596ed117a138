import Yonder.Audit.Anchor
import Yonder.Wire.ContainerReader

/-!
# The digests of a record file

A complete record is bound by three digests, over the file up to the host's signature, up to the seal
and up to the ledger commit. The writer hashes as it writes. The verifier computes all three in one
pass over the file, anchoring and ledger recovery check the last two in one pass of their own, each with
reads of any size. `computePrefixDigests_eq` and `verifyRecordDigests_eq` say that the passes compute
the digests of exactly those prefixes, and `written_digests` that these are the digests the writer
returned.

`inspect_pending_record` is modelled with the search for the footer, the signature and the position in
the ledger; it does not look at the digest that the seal holds.
-/

namespace Yonder.Audit

open Lib Wire

/-! ## The verifier's pass -/

/-- The digests of the file up to the host's signature, the seal and the ledger commit. -/
structure PrefixDigests where
  sealedPrefix : Digest32
  sealedRecord : Digest32
  finalDigest : Digest32
deriving DecidableEq

section

variable (c : Crypto) (chunk : Nat → Nat)

/-- `compute_prefix_digests`. A read returns at most 64 KiB, and less where `chunk` says so. -/
def computePrefixDigests (file : Bytes) (footer : FooterFacts) :
    Except StreamError PrefixDigests :=
  let pass := twoMarkPass file chunk (64 * 1024) footer.sealedPrefixEnd footer.sealEnd
    footer.ledgerEnd
  match pass.first, pass.second with
  | some sealedPrefix, some sealedRecord =>
    if pass.position ≠ footer.ledgerEnd then .error (.tampered "the audit container is truncated")
    else .ok ⟨c.sha256 sealedPrefix, c.sha256 sealedRecord, c.sha256 pass.collected⟩
  | _, _ => .error (.tampered "the audit container is truncated")

/-- The digest checks at the end of `verify_footer`. -/
def checkPrefixDigests (file : Bytes) (footer : FooterFacts) : Except StreamError Unit := do
  let digests ← computePrefixDigests c chunk file footer
  if footer.recordSeal.sealedPrefixDigest ≠ digests.sealedPrefix then
    throw (.tampered "the local record seal digest is invalid")
  if footer.commit.sealedRecordDigest ≠ digests.sealedRecord then
    throw (.tampered "the ledger commit digest is invalid")
  if footer.finalDigest ≠ digests.finalDigest then
    throw (.tampered "the container digest does not match its contents")

end

/-! ## The recovery of the ledger -/

def recoveryTailLen : Nat := 1136
def recoveryChunk : Nat := 64 * 1024

/-- The errors of the ledger that do not come from the storage. -/
inductive AuditLedgerError where
  | auditLedgerInvalid
  | auditLedgerConflict
deriving DecidableEq, Repr

structure LedgerHead where
  sequence : UInt64
  root : Digest32
deriving DecidableEq

/-- The search for the footer: from the end of the tail back to a place where the magic stands and a
footer decodes. The place is an offset in the file. -/
def locateFooter (file : Bytes) : Option (Nat × DecodedFooter) :=
  let tailLen := min file.length recoveryTailLen
  let tail := file.drop (file.length - tailLen)
  (List.range tailLen).reverse.findSome? fun scan =>
    if footerMagic <+: tail.drop scan then
      (decodeFooter (tail.drop scan)).map fun decoded => (file.length - tailLen + scan, decoded)
    else none

section

variable (c : Crypto) (chunk : Nat → Nat)

/-- `verify_record_digests`. -/
def verifyRecordDigests (file : Bytes) (sealEnd ledgerEnd : Nat)
    (expectedSealed expectedFinal : Digest32) : Bool :=
  let pass := prefixPass file chunk recoveryChunk sealEnd ledgerEnd
  if pass.position ≠ ledgerEnd then false
  else if pass.snapshot.any (fun sealedBytes => decide (c.sha256 sealedBytes = expectedSealed)) = false
    then false
  else decide (c.sha256 pass.collected = expectedFinal)

/-- `inspect_pending_record` on the contents of a record file. -/
def inspectPendingRecord (identity : Ed25519PublicKey) (head : LedgerHead) (file : Bytes) :
    Except AuditLedgerError (Option LedgerCommit) :=
  if file.length < containerHeaderLen then .ok none
  else
    match locateFooter file with
    | none => .ok none
    | some (footerStart, decoded) =>
      let commit := decoded.ledgerCommit
      if verifyRecordDigests c chunk file (footerStart + decoded.sealEnd)
          (footerStart + decoded.ledgerEnd) commit.sealedRecordDigest
          decoded.finalContainerDigest = false then .ok none
      else if signedBy c identity commit = false then .ok none
      else if 2 ^ 64 ≤ head.sequence.toNat + 1 then .error .auditLedgerInvalid
      else if head.sequence.toNat + 1 < commit.sequence.toNat then .error .auditLedgerConflict
      else if commit.sequence.toNat < head.sequence.toNat + 1 then .ok none
      else if commit.previousRoot ≠ head.root then .error .auditLedgerConflict
      else .ok (some commit)

end

/-! ## What the passes compute -/

section

variable {c : Crypto} {chunk : Nat → Nat} {file : Bytes}

theorem computePrefixDigests_eq {footer : FooterFacts} (h₁ : footer.sealedPrefixEnd < footer.sealEnd)
    (h₂ : footer.sealEnd ≤ footer.ledgerEnd) (h₃ : footer.ledgerEnd ≤ file.length) :
    computePrefixDigests c chunk file footer =
      .ok ⟨c.sha256 (file.take footer.sealedPrefixEnd), c.sha256 (file.take footer.sealEnd),
        c.sha256 (file.take footer.ledgerEnd)⟩ := by
  unfold computePrefixDigests
  rw [twoMarkPass_eq (by decide) h₁]
  dsimp only
  rw [if_pos (by omega), if_pos (by omega)]
  dsimp only
  rw [if_neg (by omega)]

theorem computePrefixDigests_short {footer : FooterFacts}
    (h₁ : footer.sealedPrefixEnd < footer.sealEnd) (h : file.length < footer.ledgerEnd) :
    computePrefixDigests c chunk file footer = .error (.tampered "the audit container is truncated") := by
  unfold computePrefixDigests
  rw [twoMarkPass_eq (by decide) h₁]
  dsimp only
  split
  · rw [if_pos (by omega)]
  · rfl

/-- However the reads are split, the checks are those of the verifier's model, which hashes the prefixes
as they are. -/
theorem checkPrefixDigests_eq {footer : FooterFacts} (h₁ : footer.sealedPrefixEnd < footer.sealEnd)
    (h₂ : footer.sealEnd ≤ footer.ledgerEnd) :
    checkPrefixDigests c chunk file footer = verifyPrefixDigests c file footer := by
  unfold checkPrefixDigests verifyPrefixDigests
  by_cases hshort : file.length < footer.ledgerEnd
  · rw [computePrefixDigests_short h₁ hshort, if_pos hshort]
    rfl
  · rw [computePrefixDigests_eq h₁ h₂ (by omega), if_neg hshort]
    rfl

theorem verifyRecordDigests_eq {sealEnd ledgerEnd : Nat} {expectedSealed expectedFinal : Digest32}
    (h₁ : sealEnd ≤ ledgerEnd) (h₂ : ledgerEnd ≤ file.length) :
    verifyRecordDigests c chunk file sealEnd ledgerEnd expectedSealed expectedFinal =
      (decide (c.sha256 (file.take sealEnd) = expectedSealed) &&
        decide (c.sha256 (file.take ledgerEnd) = expectedFinal)) := by
  unfold verifyRecordDigests
  rw [prefixPass_eq (by decide)]
  dsimp only
  rw [if_neg (by omega), if_pos (by omega : sealEnd ≤ min ledgerEnd file.length)]
  by_cases hsealed : c.sha256 (file.take sealEnd) = expectedSealed <;> simp [hsealed]

/-- Only the last 1136 bytes of a file can be its footer. -/
theorem locateFooter_eq (hlen : 1136 ≤ file.length) :
    locateFooter file = (decodeFooter (file.drop (file.length - 1136))).map
      fun decoded => (file.length - 1136, decoded) := by
  have htail : min file.length recoveryTailLen = 1136 := by
    change min file.length 1136 = 1136
    omega
  unfold locateFooter
  dsimp only
  rw [htail, findSome_reverse_range_eq (by omega)]
  · rw [List.drop_zero, Nat.add_zero]
    by_cases hmagic : footerMagic <+: file.drop (file.length - 1136)
    · rw [if_pos hmagic]
    · rw [if_neg hmagic, decodeFooter, if_neg hmagic]
      rfl
  · intro scan hscan
    split_ifs with hmagic
    · cases hdecoded : decodeFooter ((file.drop (file.length - 1136)).drop scan) with
      | none => rfl
      | some decoded =>
        -- a footer is 1136 bytes long
        obtain ⟨-, hbytes, -⟩ := decodeFooter_eq_some hdecoded
        have hcount := congrArg List.length hbytes
        rw [length_encodeFooter, List.length_drop, List.length_drop] at hcount
        omega
    · rfl

end

/-! ## A file with a footer -/

namespace AuditContainerFooter

/-- The footer up to the host's signature, up to the seal and up to the commit. -/
def manifestBytes (f : AuditContainerFooter) : Bytes :=
  encodeManifestPart f.manifest f.controllerSessionSignature f.hostSessionSignature

def sealedBytes (f : AuditContainerFooter) : Bytes :=
  manifestBytes f ++ writePrefixed (LocalRecordSeal.codec.enc f.recordSeal)

def committedBytes (f : AuditContainerFooter) : Bytes :=
  sealedBytes f ++ writePrefixed (LedgerCommit.codec.enc f.ledgerCommit)

/-- The file that has the footer after some contents. -/
def file (f : AuditContainerFooter) (contents : Bytes) (digest : Digest32) : Bytes :=
  contents ++ committedBytes f ++ digest.1

/-- What the walk makes of the footer. -/
def facts (f : AuditContainerFooter) (contents : Bytes) (digest : Digest32) : FooterFacts where
  manifestBytes := JointManifest.codec.enc f.manifest
  controllerSignature := f.controllerSessionSignature
  hostSignature := f.hostSessionSignature
  recordSeal := f.recordSeal
  commit := f.ledgerCommit
  sealedPrefixEnd := contents.length + 538
  sealEnd := contents.length + 869
  ledgerEnd := contents.length + 1104
  finalDigest := digest

/-- The digests of the three prefixes. -/
def digests (c : Crypto) (f : AuditContainerFooter) (contents : Bytes) : PrefixDigests :=
  ⟨c.sha256 (contents ++ manifestBytes f), c.sha256 (contents ++ sealedBytes f),
    c.sha256 (contents ++ committedBytes f)⟩

variable {f : AuditContainerFooter} {contents : Bytes} {digest : Digest32}

theorem length_manifestBytes : (manifestBytes f).length = 538 := length_encodeManifestPart _ _ _

theorem length_sealedBytes : (sealedBytes f).length = 869 := by
  rw [sealedBytes, List.length_append, length_manifestBytes, length_writePrefixed,
    LocalRecordSeal.codec.enc_length, sealCodec_width]

theorem length_committedBytes : (committedBytes f).length = 1104 := by
  rw [committedBytes, List.length_append, length_sealedBytes, length_writePrefixed,
    LedgerCommit.codec.enc_length, commitCodec_width]

theorem length_file : (file f contents digest).length = contents.length + 1136 := by
  rw [file, List.length_append, List.length_append, length_committedBytes, digest.2]

/-- A prefix of the footer is found behind the contents. -/
theorem take_file {part rest : Bytes} {n : Nat} (hpart : part.length = n)
    (hsplit : committedBytes f = part ++ rest) :
    (file f contents digest).take (contents.length + n) = contents ++ part := by
  have hform : file f contents digest = (contents ++ part) ++ (rest ++ digest.1) := by
    rw [file, hsplit]
    simp only [List.append_assoc]
  rw [hform]
  exact List.take_left' (by rw [List.length_append, hpart])

theorem take_manifestBytes :
    (file f contents digest).take (contents.length + 538) = contents ++ manifestBytes f :=
  take_file length_manifestBytes (by rw [committedBytes, sealedBytes, List.append_assoc])

theorem take_sealedBytes :
    (file f contents digest).take (contents.length + 869) = contents ++ sealedBytes f :=
  take_file length_sealedBytes rfl

theorem take_committedBytes :
    (file f contents digest).take (contents.length + 1104) = contents ++ committedBytes f :=
  take_file length_committedBytes (List.append_nil _).symm

/-- The footer of the file, as it is decoded. -/
theorem decodeFooter_file (hversion : f.manifest.formatVersion = auditFormatVersion) :
    decodeFooter ((file f contents digest).drop ((file f contents digest).length - 1136)) =
      some (f.decodedAt digest 0) := by
  have hdrop : (file f contents digest).drop contents.length = encodeFooter f.manifest
      f.controllerSessionSignature f.hostSessionSignature f.recordSeal f.ledgerCommit digest := by
    rw [file, List.append_assoc, List.drop_left]
    rfl
  rw [length_file, Nat.add_sub_cancel, hdrop]
  exact decodeFooter_encodeFooter _ _ _ _ _ digest hversion

variable {c : Crypto} {chunk : Nat → Nat}

/-- The writer's three requests for the footer return the digests of the prefixes and write the last. -/
theorem written_digests (hversion : f.manifest.formatVersion = auditFormatVersion) :
    ∃ w₁ w₂ w₃ : AuditWriter,
      AuditWriter.runWriteManifestAndSignatures c ⟨.recording, contents⟩ f.manifest
          f.controllerSessionSignature f.hostSessionSignature =
        .ok (w₁, (digests c f contents).sealedPrefix) ∧
      w₁.runWriteSeal c f.recordSeal = .ok (w₂, (digests c f contents).sealedRecord) ∧
      w₂.runWriteLedgerCommit c f.ledgerCommit = .ok w₃ ∧
      w₃.contents = file f contents (digests c f contents).finalDigest := by
  have hmanifest : AuditWriter.runWriteManifestAndSignatures c ⟨.recording, contents⟩ f.manifest
      f.controllerSessionSignature f.hostSessionSignature =
        .ok (⟨.finalizing, contents ++ manifestBytes f⟩, (digests c f contents).sealedPrefix) := by
    have hpart : contents ++ footerMagic ++ writePrefixed (JointManifest.codec.enc f.manifest) ++
        (writePrefixed f.controllerSessionSignature.1 ++ writePrefixed f.hostSessionSignature.1) =
          contents ++ manifestBytes f := by
      simp only [manifestBytes, encodeManifestPart, List.append_assoc]
    rw [AuditWriter.runWriteManifestAndSignatures, JointManifest.encodePayload, if_pos hversion]
    dsimp only [AuditWriter.writeBytes]
    rw [if_neg (by simp), hpart]
    rfl
  have hseal : AuditWriter.runWriteSeal c ⟨.finalizing, contents ++ manifestBytes f⟩ f.recordSeal =
      .ok (⟨.finalizing, contents ++ sealedBytes f⟩, (digests c f contents).sealedRecord) := by
    rw [AuditWriter.runWriteSeal, if_neg (by simp)]
    dsimp only [AuditWriter.writeBytes]
    rw [List.append_assoc]
    rfl
  refine ⟨_, _, _, hmanifest, hseal, rfl, ?_⟩
  have hcommitted : contents ++ sealedBytes f ++ writePrefixed (LedgerCommit.codec.enc f.ledgerCommit) =
      contents ++ committedBytes f := by
    rw [List.append_assoc, committedBytes]
  dsimp only [AuditWriter.writeBytes]
  rw [hcommitted]
  rfl

theorem facts_ordered : (facts f contents digest).sealedPrefixEnd < (facts f contents digest).sealEnd ∧
    (facts f contents digest).sealEnd ≤ (facts f contents digest).ledgerEnd := by
  constructor
  · change contents.length + 538 < contents.length + 869
    omega
  · change contents.length + 869 ≤ contents.length + 1104
    omega

theorem computePrefixDigests_file : computePrefixDigests c chunk (file f contents digest)
    (facts f contents digest) = .ok (digests c f contents) := by
  rw [computePrefixDigests_eq facts_ordered.1 facts_ordered.2 (by rw [length_file]; simp [facts])]
  change Except.ok (PrefixDigests.mk (c.sha256 ((file f contents digest).take (contents.length + 538)))
    (c.sha256 ((file f contents digest).take (contents.length + 869)))
    (c.sha256 ((file f contents digest).take (contents.length + 1104)))) = _
  rw [take_manifestBytes, take_sealedBytes, take_committedBytes]
  rfl

theorem verifyRecordDigests_file (expectedSealed expectedFinal : Digest32) :
    verifyRecordDigests c chunk (file f contents digest) (contents.length + 869)
        (contents.length + 1104) expectedSealed expectedFinal =
      (decide ((digests c f contents).sealedRecord = expectedSealed) &&
        decide ((digests c f contents).finalDigest = expectedFinal)) := by
  rw [verifyRecordDigests_eq (by omega) (by rw [length_file]; omega), take_sealedBytes,
    take_committedBytes]
  rfl

theorem verifyAnchorDigests_file (record : AnchorRecord)
    (hseal : record.sealEnd = contents.length + 869)
    (hledger : record.ledgerEnd = contents.length + 1104) :
    verifyAnchorDigests c chunk (file f contents digest) record = true ↔
      (digests c f contents).sealedRecord = record.commit.sealedRecordDigest ∧
        (digests c f contents).finalDigest = record.finalDigest := by
  rw [verifyAnchorDigests_iff]
  constructor
  · rintro ⟨-, -, hsealed, hfinal⟩
    rw [hseal, take_sealedBytes] at hsealed
    rw [hledger, take_committedBytes] at hfinal
    exact ⟨hsealed, hfinal⟩
  · rintro ⟨hsealed, hfinal⟩
    refine ⟨?_, by omega, ?_, ?_⟩
    · rw [hledger, length_file]
      omega
    · rw [hseal, take_sealedBytes]
      exact hsealed
    · rw [hledger, take_committedBytes]
      exact hfinal

theorem checkPrefixDigests_file :
    checkPrefixDigests c chunk (file f contents digest) (facts f contents digest) = .ok () ↔
      f.recordSeal.sealedPrefixDigest = (digests c f contents).sealedPrefix ∧
        f.ledgerCommit.sealedRecordDigest = (digests c f contents).sealedRecord ∧
        digest = (digests c f contents).finalDigest := by
  rw [checkPrefixDigests, computePrefixDigests_file]
  change (do
    if f.recordSeal.sealedPrefixDigest ≠ (digests c f contents).sealedPrefix then _
    if f.ledgerCommit.sealedRecordDigest ≠ (digests c f contents).sealedRecord then _
    if digest ≠ (digests c f contents).finalDigest then _ : Except StreamError Unit) = _ ↔ _
  by_cases h₁ : f.recordSeal.sealedPrefixDigest = (digests c f contents).sealedPrefix
  case neg => simp [h₁, bind, Except.bind, throw, throwThe, MonadExceptOf.throw]
  case pos =>
    by_cases h₂ : f.ledgerCommit.sealedRecordDigest = (digests c f contents).sealedRecord
    case neg => simp [h₁, h₂, bind, Except.bind, throw, throwThe, MonadExceptOf.throw]
    case pos =>
      by_cases h₃ : digest = (digests c f contents).finalDigest
      · simp [h₁, h₂, h₃, pure, Except.pure]
      · simp [h₁, h₂, h₃, throw, throwThe, MonadExceptOf.throw]

/-- A file with a footer is taken up by the recovery exactly if its two digests are right, the commit is
signed by the local identity and it follows the head. -/
theorem inspectPendingRecord_file (hversion : f.manifest.formatVersion = auditFormatVersion)
    {identity : Ed25519PublicKey} {head : LedgerHead} {commit : LedgerCommit} :
    inspectPendingRecord c chunk identity head (file f contents digest) = .ok (some commit) ↔
      commit = f.ledgerCommit ∧
        ((digests c f contents).sealedRecord = f.ledgerCommit.sealedRecordDigest ∧
          (digests c f contents).finalDigest = digest) ∧
        signedBy c identity f.ledgerCommit = true ∧
        f.ledgerCommit.sequence.toNat = head.sequence.toNat + 1 ∧
        f.ledgerCommit.previousRoot = head.root := by
  have hlocate : locateFooter (file f contents digest) =
      some (contents.length, f.decodedAt digest 0) := by
    rw [locateFooter_eq (by rw [length_file]; omega), decodeFooter_file hversion, length_file,
      Nat.add_sub_cancel]
    rfl
  have hdigests : verifyRecordDigests c chunk (file f contents digest)
      (contents.length + (f.decodedAt digest 0).sealEnd)
      (contents.length + (f.decodedAt digest 0).ledgerEnd)
      (f.decodedAt digest 0).ledgerCommit.sealedRecordDigest
      (f.decodedAt digest 0).finalContainerDigest = _ :=
    verifyRecordDigests_file f.ledgerCommit.sealedRecordDigest digest
  have hlt : f.ledgerCommit.sequence.toNat < 2 ^ 64 := f.ledgerCommit.sequence.toNat_lt
  unfold inspectPendingRecord
  rw [if_neg (by rw [length_file]; change ¬ contents.length + 1136 < 713; omega), hlocate]
  dsimp only
  rw [hdigests, show (f.decodedAt digest 0).ledgerCommit = f.ledgerCommit from rfl]
  constructor
  · intro h
    split at h
    · cases h
    rename_i h₁
    split at h
    · cases h
    rename_i h₂
    split_ifs at h with h₃ h₄ h₅ h₆
    · cases h
    have hcommit := Option.some.inj (Except.ok.inj h)
    rw [Bool.not_eq_false, Bool.and_eq_true, decide_eq_true_eq, decide_eq_true_eq] at h₁
    rw [Bool.not_eq_false] at h₂
    exact ⟨hcommit.symm, h₁, h₂, by omega, not_not.1 h₆⟩
  · rintro ⟨rfl, ⟨hsealed, hfinal⟩, hsigned, hsequence, hroot⟩
    rw [if_neg (by simp [hsealed, hfinal]), if_neg (by simp [hsigned]), if_neg (by omega),
      if_neg (by omega), if_neg (by omega), if_neg (not_not.2 hroot)]

/-- For every file with a footer and every split of it into reads, the verifier, anchoring and the
recovery of the ledger compute the digests that the writer returned. A file that the recovery takes up
passes the verifier's digest checks exactly if its seal holds the digest of the sealed prefix, and a
file that passes them has the digests the recovery asks for. -/
theorem prefix_digests_agree (c : Crypto) (f : AuditContainerFooter) (contents : Bytes)
    (digest : Digest32) (chunk₁ chunk₂ chunk₃ : Nat → Nat)
    (hversion : f.manifest.formatVersion = auditFormatVersion) :
    ∃ d : PrefixDigests,
      (∃ w₁ w₂ w₃ : AuditWriter,
        AuditWriter.runWriteManifestAndSignatures c ⟨.recording, contents⟩ f.manifest
          f.controllerSessionSignature f.hostSessionSignature = .ok (w₁, d.sealedPrefix) ∧
        w₁.runWriteSeal c f.recordSeal = .ok (w₂, d.sealedRecord) ∧
        w₂.runWriteLedgerCommit c f.ledgerCommit = .ok w₃ ∧
        w₃.contents = file f contents d.finalDigest) ∧
      computePrefixDigests c chunk₁ (file f contents digest) (facts f contents digest) = .ok d ∧
      (∀ record : AnchorRecord, record.sealEnd = contents.length + 869 →
        record.ledgerEnd = contents.length + 1104 →
        (verifyAnchorDigests c chunk₂ (file f contents digest) record = true ↔
          d.sealedRecord = record.commit.sealedRecordDigest ∧ d.finalDigest = record.finalDigest)) ∧
      (∀ expectedSealed expectedFinal, verifyRecordDigests c chunk₃ (file f contents digest)
          (contents.length + 869) (contents.length + 1104) expectedSealed expectedFinal =
        (decide (d.sealedRecord = expectedSealed) && decide (d.finalDigest = expectedFinal))) ∧
      (∀ identity head commit,
        inspectPendingRecord c chunk₃ identity head (file f contents digest) = .ok (some commit) →
        (checkPrefixDigests c chunk₁ (file f contents digest) (facts f contents digest) = .ok () ↔
          f.recordSeal.sealedPrefixDigest = d.sealedPrefix)) ∧
      (checkPrefixDigests c chunk₁ (file f contents digest) (facts f contents digest) = .ok () →
        verifyRecordDigests c chunk₃ (file f contents digest) (contents.length + 869)
          (contents.length + 1104) f.ledgerCommit.sealedRecordDigest digest = true) := by
  refine ⟨digests c f contents, written_digests hversion, computePrefixDigests_file, ?_,
    verifyRecordDigests_file, ?_, ?_⟩
  · intro record hseal hledger
    exact verifyAnchorDigests_file record hseal hledger
  · intro identity head commit hrecovered
    obtain ⟨-, ⟨hsealed, hfinal⟩, -⟩ := (inspectPendingRecord_file hversion).1 hrecovered
    rw [checkPrefixDigests_file]
    exact ⟨fun h => h.1, fun h => ⟨h, hsealed.symm, hfinal.symm⟩⟩
  · intro hcheck
    obtain ⟨-, hsealed, hfinal⟩ := checkPrefixDigests_file.1 hcheck
    rw [verifyRecordDigests_file, ← hsealed, ← hfinal]
    simp

/-! ## A seal with another digest -/

/-- The footer of a record of one side whose seal holds a digest of zeros, with the commit that follows
the genesis of the ledger. -/
def zeroSealed (c : Crypto) (key : FixedBytes 32) (contents : Bytes) : AuditContainerFooter :=
  let signature : Ed25519Signature := FixedBytes.replicate 64 0
  let recordSeal : LocalRecordSeal := ⟨zeroHead, .controller, zeroHead, 0,
    (zeroHead, zeroHead, zeroHead, zeroHead), zeroHead, zeroHead, signature⟩
  let part := encodeManifestPart plainManifest signature signature ++
    writePrefixed (LocalRecordSeal.codec.enc recordSeal)
  let commit : LedgerCommit := ⟨1, zeroHead, zeroHead, zeroHead, c.sha256 (contents ++ part), zeroHead,
    .normal, signature⟩
  ⟨plainManifest, signature, signature, recordSeal,
    { commit with signature := c.sign key commit.signingInput }⟩

theorem zeroSealed_signed (c : Crypto) (key : FixedBytes 32) (contents : Bytes) :
    signedBy c (c.publicKey key) (zeroSealed c key contents).ledgerCommit = true :=
  c.verify_sign key _

theorem zeroSealed_sealedRecord (c : Crypto) (key : FixedBytes 32) (contents : Bytes) :
    (digests c (zeroSealed c key contents) contents).sealedRecord =
      (zeroSealed c key contents).ledgerCommit.sealedRecordDigest := rfl

/-- The recovery takes up a record whose seal does not hold the digest of the sealed prefix, and the
verifier refuses it. -/
theorem recovered_not_verified :
    let f := zeroSealed .transparent zeroHead (plainContents .controller)
    let digest := (digests .transparent f (plainContents .controller)).finalDigest
    inspectPendingRecord .transparent (fun _ => 1) zeroHead ⟨0, zeroHead⟩
        (file f (plainContents .controller) digest) = .ok (some f.ledgerCommit) ∧
      checkPrefixDigests .transparent (fun _ => 1) (file f (plainContents .controller) digest)
        (facts f (plainContents .controller) digest) ≠ .ok () := by
  intro f digest
  have hversion : f.manifest.formatVersion = auditFormatVersion := rfl
  refine ⟨(inspectPendingRecord_file hversion).2 ⟨rfl, ⟨?_, rfl⟩, ?_, rfl, rfl⟩, ?_⟩
  · exact zeroSealed_sealedRecord .transparent zeroHead _
  · exact zeroSealed_signed .transparent zeroHead _
  · intro hcheck
    obtain ⟨hstart, -⟩ := checkPrefixDigests_file.1 hcheck
    revert hstart
    decide +kernel

/-- The digests of the record of a session, with reads of one byte. -/
theorem prefix_digests_of_session :
    ∃ d : PrefixDigests, computePrefixDigests .transparent (fun _ => 1)
      (file (zeroSealed .transparent zeroHead (plainContents .controller)) (plainContents .controller)
        zeroHead)
      (facts (zeroSealed .transparent zeroHead (plainContents .controller)) (plainContents .controller)
        zeroHead) = .ok d := by
  obtain ⟨d, -, hdigests, -⟩ := prefix_digests_agree .transparent
    (zeroSealed .transparent zeroHead (plainContents .controller)) (plainContents .controller) zeroHead
    (fun _ => 1) (fun _ => 1) (fun _ => 1) rfl
  exact ⟨d, hdigests⟩

end AuditContainerFooter

end Yonder.Audit
