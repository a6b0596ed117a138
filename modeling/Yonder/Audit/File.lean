import Yonder.Audit.Writer

/-!
# The file of a session

What the walk over the file of a session meets at its two ends: the header opens and its bindings
hold, a file without a footer is a truncated one, and the footer that
`finalize_footer` wrote decodes to the facts of `sessionFooter`.
-/

namespace Yonder.Audit

open Lib Wire

section

variable {c : Crypto}

/-! ## A file without a footer -/

/-- Too few bytes for a footer are a truncated tail, whatever the walk stopped at. -/
theorem walkFooter_short (file : Bytes) (v : ChainVerifier) (stop : Bool) {rest : Bytes}
    (h : rest.length < maxFooterLen) : walkFooter c file v stop rest = .ok ⟨file, v, none, true⟩ := by
  rw [maxFooterLen] at h
  have hdec : decodeFooter (footerMagic ++ rest) = none := by
    cases hd : decodeFooter (footerMagic ++ rest) with
    | none => rfl
    | some d =>
      have hlen := congrArg List.length (decodeFooter_eq_some hd).2.1
      rw [length_encodeFooter, List.length_append, show footerMagic.length = 4 from rfl] at hlen
      omega
  have hshort : ¬ minLegalFooterLen ≤ rest.length + footerMagic.length := by
    rw [minLegalFooterLen, show footerMagic.length = 4 from rfl]
    omega
  rw [walkFooter, if_neg (by rw [maxFooterLen]; omega), hdec]
  exact if_neg hshort

/-! ## A complete file -/

/-- The footer that the verifier reads behind `contents`. -/
def sessionFooter (c : Crypto) (s : AuditSession) (contents : Bytes) (j : JointManifest)
    (signature peerSignature : Ed25519Signature) (sequence : UInt64) (previousRoot : Digest32) :
    FooterFacts :=
  { manifestBytes := JointManifest.codec.enc j
    controllerSignature := (s.facts.fresh.byRole signature peerSignature).1
    hostSignature := (s.facts.fresh.byRole signature peerSignature).2
    recordSeal := s.footerSeal c contents j signature peerSignature
    commit := s.footerCommit c contents j signature peerSignature sequence previousRoot
    sealedPrefixEnd := contents.length + 538
    sealEnd := contents.length + 869
    ledgerEnd := contents.length + 1104
    finalDigest := c.sha256 (contents ++
      s.committedPart c contents j signature peerSignature sequence previousRoot) }

section

variable {s : AuditSession} {contents : Bytes} {j : JointManifest}
  {signature peerSignature : Ed25519Signature} {sequence : UInt64} {previousRoot : Digest32}

theorem length_manifestPart : (s.manifestPart j signature peerSignature).length = 538 :=
  length_encodeManifestPart _ _ _

theorem length_sealedPart : (s.sealedPart c contents j signature peerSignature).length = 869 := by
  rw [AuditSession.sealedPart, List.length_append, length_manifestPart, length_writePrefixed,
    Codec.enc_length]
  rfl

theorem length_committedPart :
    (s.committedPart c contents j signature peerSignature sequence previousRoot).length = 1104 := by
  rw [AuditSession.committedPart, List.length_append, length_sealedPart, length_writePrefixed,
    Codec.enc_length]
  rfl

theorem length_footerBytes :
    (s.footerBytes c contents j signature peerSignature sequence previousRoot).length = 1136 := by
  rw [AuditSession.footerBytes, List.length_append, length_committedPart, (c.sha256 _).2]

theorem decodeFooter_footerBytes (hformat : j.formatVersion = auditFormatVersion) :
    decodeFooter (s.footerBytes c contents j signature peerSignature sequence previousRoot) =
      some ⟨j, (s.facts.fresh.byRole signature peerSignature).1,
        (s.facts.fresh.byRole signature peerSignature).2,
        s.footerSeal c contents j signature peerSignature,
        s.footerCommit c contents j signature peerSignature sequence previousRoot,
        c.sha256 (contents ++
          s.committedPart c contents j signature peerSignature sequence previousRoot),
        538, 869, 1104⟩ :=
  decodeFooter_encodeFooter _ _ _ _ _ _ hformat

end

end

end Yonder.Audit
