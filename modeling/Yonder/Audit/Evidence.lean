import Yonder.Audit.Simulation

/-!
# The evidence a session writes

Checkpoints and acknowledgments are written as evidence records. There is one lemma for each function
of the exchange: what its success says about the message it sent or accepted, the next session and
the records. The close of the four directions is the same for the shared streams.
-/

namespace Yonder.Audit

open Lib Wire

/-- The kind payload of an evidence record. -/
def evidencePayload (kind : UInt8) (evidence : Bytes) : Bytes :=
  kind :: (Codec.u32.enc (UInt32.ofNat evidence.length) ++ evidence)

section

variable {c : Crypto} {s : AuditSession}

/-! ## Checkpoints -/

variable {now : UInt64} {s' : AuditSession} {rs : List Record}

theorem buildCheckpointWithPolicy_ok {policy : CheckpointPolicy} {k : Checkpoint}
    (h : s.buildCheckpointWithPolicy c now policy = .ok (s', k, rs)) :
    k = s.nextCheckpoint c ∧
      s' = { (s.pushLocal c .checkpointEvidence (evidencePayload evidenceSentCheckpoint
          (Checkpoint.codec.enc k)) zeroHead now).1 with
        lastSentCheckpoint := some k
        nextCheckpointSequence := k.sequence + 1
        lastCheckpointTimeNs := now
        checkpointSharedBytes := 0
        checkpointDueFlag := false } ∧
      rs = [⟨.checkpointEvidence, localPayload now zeroHead
        (evidencePayload evidenceSentCheckpoint (Checkpoint.codec.enc k))⟩] := by
  unfold AuditSession.buildCheckpointWithPolicy at h
  cases policy with
  | observation =>
    dsimp only at h
    obtain ⟨-, -, h⟩ := bind_eq_ok_iff.1 h
    cases h
    exact ⟨rfl, rfl, rfl⟩
  | exactPrefix =>
    dsimp only at h
    obtain ⟨-, -, h⟩ := bind_eq_ok_iff.1 h
    cases h
    exact ⟨rfl, rfl, rfl⟩

/-- What an accepted checkpoint of the peer passed, and what the session did with it: nothing for a
retransmission, two evidence records otherwise. -/
theorem receiveCheckpointWithPolicy_ok {k : Checkpoint} {policy : CheckpointPolicy}
    {ack : CheckpointAck} (h : s.receiveCheckpointWithPolicy c k now policy = (.ok (ack, rs), s')) :
    k.sessionId = s.facts.sessionId ∧
      c.verify s.facts.peerHello.sessionKey k.signingInput k.signature = true ∧
      (policy = .exactPrefix → k.snapshot = s.sharedSnapshot) ∧
      ack = s.buildAck c k (c.sha256 (Checkpoint.codec.enc k)) ∧
      ((s' = s ∧ rs = [] ∧
          s.lastReceivedCheckpoint = some (k.sequence, c.sha256 (Checkpoint.codec.enc k))) ∨
        (k.sequence = (s.lastReceivedCheckpoint.map Prod.fst).getD 0 + 1 ∧
          s' = ((({ s with
              lastReceivedCheckpoint := some (k.sequence, c.sha256 (Checkpoint.codec.enc k))
              lastConfirmedReceived := k.sequence } : AuditSession).pushLocal c .checkpointEvidence
              (evidencePayload evidenceReceivedCheckpoint (Checkpoint.codec.enc k)) zeroHead
                now).1.pushLocal c .checkpointEvidence
              (evidencePayload evidenceSentCheckpointAck (CheckpointAck.codec.enc ack)) zeroHead
                now).1 ∧
          rs = [⟨.checkpointEvidence, localPayload now zeroHead
              (evidencePayload evidenceReceivedCheckpoint (Checkpoint.codec.enc k))⟩,
            ⟨.checkpointEvidence, localPayload now zeroHead
              (evidencePayload evidenceSentCheckpointAck (CheckpointAck.codec.enc ack))⟩])) := by
  unfold AuditSession.receiveCheckpointWithPolicy at h
  simp only at h
  split at h
  · cases h
  split at h
  · cases h
  rename_i hid
  split at h
  · cases h
  rename_i hsig
  split at h
  · cases h
  rename_i hexact
  refine ⟨not_not.1 hid, by simpa using hsig, ?_, ?_⟩
  · intro hp
    by_contra hne
    exact hexact ⟨hp, hne⟩
  split at h
  · rename_i hseq
    split at h
    · rename_i hlast
      cases h
      exact ⟨rfl, Or.inl ⟨rfl, rfl, hlast⟩⟩
    · cases h
  · rename_i hseq
    cases h
    exact ⟨rfl, Or.inr ⟨not_not.1 hseq, rfl, rfl⟩⟩

/-- What an acknowledgment must say to confirm a checkpoint. -/
structure Confirms (a : CheckpointAck) (k : CheckpointRef) : Prop where
  sequence_eq : a.sequence = k.sequence
  digest_eq : a.checkpointDigest = k.digest
  snapshot_eq : a.snapshot = k.snapshot

/-! ## Acknowledgments -/

/-- What an accepted acknowledgment of the peer passed. A repeated one leaves no record. -/
theorem receiveCheckpointAck_ok {a : CheckpointAck} {out : Option (List Record)}
    (h : s.receiveCheckpointAck c a now = (.ok out, s')) :
    ∃ sent, s.lastSentCheckpoint = some sent ∧ Confirms a (checkpointRef c sent) ∧
      a.sessionId = s.facts.sessionId ∧
      c.verify s.facts.peerHello.sessionKey a.signingInput a.signature = true ∧
      ((a.sequence ≤ s.lastConfirmedSent ∧ out = none ∧ s' = s) ∨
        (s.lastConfirmedSent < a.sequence ∧
          s' = (({ s with lastConfirmedSent := a.sequence } : AuditSession).pushLocal c
            .checkpointEvidence (evidencePayload evidenceReceivedCheckpointAck
              (CheckpointAck.codec.enc a)) zeroHead now).1 ∧
          out = some [⟨.checkpointEvidence, localPayload now zeroHead
            (evidencePayload evidenceReceivedCheckpointAck (CheckpointAck.codec.enc a))⟩])) := by
  unfold AuditSession.receiveCheckpointAck at h
  split at h
  · cases h
  split at h
  · cases h
  rename_i hid
  split at h
  · cases h
  rename_i sent hsent
  split at h
  · cases h
  rename_i hseq
  split at h
  · cases h
  rename_i hmatch
  split at h
  · cases h
  rename_i hsig
  rw [not_or, not_not, not_not] at hmatch
  refine ⟨sent, hsent, ⟨not_not.1 hseq, hmatch.1, hmatch.2⟩, not_not.1 hid, by simpa using hsig, ?_⟩
  split at h
  · rename_i hle
    cases h
    exact Or.inl ⟨hle, rfl, rfl⟩
  · rename_i hlt
    cases h
    exact Or.inr ⟨UInt64.not_le.1 hlt, rfl, rfl⟩

/-! ## Closing -/

theorem closeDirections_ok (h : s.closeDirections c = .ok (s', rs)) :
    ∃ s₁ rs₁ s₂ rs₂,
      AuditSession.commitBlocks (AuditSession.commitInputBlock c)
        { s with inputNormalizer := ⟨[], true⟩ } s.inputNormalizer.finish = (s₁, rs₁) ∧
      AuditSession.commitBlocks (AuditSession.commitOutputBlock c)
        { s₁ with outputNormalizer := ⟨[], true⟩ } s.outputNormalizer.finish = (s₂, rs₂) ∧
      s' = { s₂ with phase := .finalizing } ∧ rs = rs₁ ++ rs₂ := by
  unfold AuditSession.closeDirections at h
  obtain ⟨-, -, h⟩ := bind_eq_ok_iff.1 h
  simp only [bind, Except.bind, pure, Except.pure, throw, throwThe, MonadExceptOf.throw] at h
  split at h
  · cases h
  split at h
  · cases h
  cases h
  exact ⟨_, _, _, _, rfl, rfl, rfl, rfl⟩

end

end Yonder.Audit
