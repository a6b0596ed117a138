import Yonder.Audit.Checkpoints

/-!
# The failure close after a rejected message

A received checkpoint or acknowledgment that is rejected makes the pump call `fail_closed`, whose
records should end the file: the audit error, the closed connection and the close event.

`fail_checkpoint` has put the session into its failed phase by then, and both `fail_closed` and
`fail_closed_records` skip the records of a failed session. `recorded_iff` is the consequence: the
records are written exactly for the two rejections that do not go through `fail_checkpoint`.
-/

namespace Yonder.Audit

open Lib Wire

/-- A checkpoint or an acknowledgment of the peer. -/
inductive PeerMessage where
  | checkpoint (policy : CheckpointPolicy) (k : Checkpoint)
  | ack (a : CheckpointAck)

def PeerMessage.call : PeerMessage → SessionCall
  | checkpoint policy k => .receive policy k
  | ack a => .ack a

/-- The observer's handling of the message. -/
def Observer.handle (c : Crypto) (o : Observer) (message : PeerMessage) (now : UInt64) : Observer :=
  match message with
  | .checkpoint policy k => (o.handleCheckpoint c k policy now).1
  | .ack a => (o.handleAck c a now).1

/-- The session's answer to the message is an error. -/
def Observer.Rejects (c : Crypto) (o : Observer) (message : PeerMessage) (now : UInt64) : Prop :=
  ∃ e, (o.session.call c now message.call).1 = .error e

/-- The records of a failure close. -/
def failureRecords (code : AuditErrorCode) (reason : AuditCloseReason) (now : UInt64) :
    List Record :=
  [⟨.localAuditError, localPayload now zeroHead (Codec.u16.enc code.code)⟩,
    ⟨.localConnectionState, localPayload now zeroHead [connectionStateClosed]⟩,
    ⟨.localCloseEvent, localPayload now zeroHead [reason.code, outcomeUnconfirmed]⟩]

/-- A first `fail_closed` appends the failure records and a second one appends nothing. -/
def Observer.ClosesOnce (c : Crypto) (o : Observer) (code code' : Option AuditErrorCode)
    (reason reason' : AuditCloseReason) (now now' : UInt64) : Prop :=
  let once := (o.failClosed c code reason now).1
  let twice := (once.failClosed c code' reason' now').1
  once.writer.contents = o.writer.contents ++
      encodeRecords (failureRecords (code.getD .auditRecordWriteFailed) reason now) ∧
    twice.writer = once.writer

/-- The messages that are rejected without `fail_checkpoint`: an acknowledgment of this session before
any checkpoint was sent, and a final checkpoint while the directions are open. -/
def AuditSession.RefusesQuietly (s : AuditSession) : PeerMessage → Prop
  | .checkpoint policy _ => policy = .exactPrefix ∧ s.phase = .active
  | .ack a => a.sessionId = s.facts.sessionId ∧ s.lastSentCheckpoint = none

instance (s : AuditSession) (message : PeerMessage) : Decidable (s.RefusesQuietly message) := by
  cases message <;> unfold AuditSession.RefusesQuietly <;> infer_instance

section

variable {c : Crypto} {o : Observer} {message : PeerMessage} {now : UInt64}

/-- A rejected message changes nothing but the session and the stage. -/
theorem Observer.handle_rejected (h : o.Rejects c message now) :
    (o.handle c message now).session = (o.session.call c now message.call).2 ∧
      (o.handle c message now).writer = o.writer := by
  obtain ⟨e, he⟩ := h
  cases message with
  | checkpoint policy k =>
    rcases hreceive : o.session.receiveCheckpointWithPolicy c k now policy with ⟨_ | _, s'⟩
    · simp only [Observer.handle, Observer.handleCheckpoint, PeerMessage.call, AuditSession.call,
        hreceive]
      exact ⟨rfl, rfl⟩
    · simp only [PeerMessage.call, AuditSession.call, hreceive] at he
      cases he
  | ack a =>
    rcases hack : o.session.receiveCheckpointAck c a now with ⟨_ | _, s'⟩
    · simp only [Observer.handle, Observer.handleAck, PeerMessage.call, AuditSession.call, hack]
      exact ⟨rfl, rfl⟩
    · simp only [PeerMessage.call, AuditSession.call, hack] at he
      cases he

/-- The session after a rejected message: unchanged for the quiet refusals, failed otherwise. -/
theorem Observer.session_rejected (hphase : o.session.phase = .active ∨ o.session.phase = .finalizing)
    (h : o.Rejects c message now) :
    (o.session.call c now message.call).2 =
      if o.session.RefusesQuietly message then o.session else o.session.failed := by
  obtain ⟨e, he⟩ := h
  cases message with
  | checkpoint policy k =>
    by_cases hquiet : o.session.RefusesQuietly (.checkpoint policy k)
    · have hdead : ¬ policy.admits o.session.phase := by
        rw [hquiet.1, hquiet.2]
        nofun
      rw [if_pos hquiet]
      exact call_receive_refused hdead he
    · have hadmits : policy.admits o.session.phase := by
        cases policy with
        | observation => exact hphase
        | exactPrefix => exact hphase.resolve_left fun hactive => hquiet ⟨rfl, hactive⟩
      rw [if_neg hquiet]
      exact call_receive_rejected hadmits he
  | ack a =>
    by_cases hquiet : o.session.RefusesQuietly (.ack a)
    · rw [if_pos hquiet]
      exact call_ack_unsolicited hquiet.1 hquiet.2 he
    · rw [if_neg hquiet]
      rcases call_ack_rejected hphase he with hfailed | ⟨hid, hnone, -⟩
      · exact hfailed
      · exact absurd ⟨hid, hnone⟩ hquiet

theorem encodeRecords_failureRecords_ne_nil (code : AuditErrorCode) (reason : AuditCloseReason) :
    encodeRecords (failureRecords code reason now) ≠ [] := by
  intro h
  have hlen := congrArg List.length h
  simp [failureRecords, encodeRecords, Record.encode] at hlen

/-- The failure close of a failed session writes nothing. -/
theorem Observer.writer_failClosed_failed (hfailed : o.session.phase = .failed)
    (code : Option AuditErrorCode) (reason : AuditCloseReason) :
    (o.failClosed c code reason now).1.writer = o.writer := by
  rw [Observer.failClosed, if_pos hfailed]
  rfl

/-- The failure close of a live session writes its records and fails the session. -/
theorem Observer.failClosed_live (hphase : o.session.phase ≠ .failed)
    (hwriter : o.writer.phase = .recording) (code : Option AuditErrorCode)
    (reason : AuditCloseReason) :
    (o.failClosed c code reason now).1.session.phase = .failed ∧
      (o.failClosed c code reason now).1.writer.contents = o.writer.contents ++
        encodeRecords (failureRecords (code.getD .auditRecordWriteFailed) reason now) := by
  have hrecords : ∃ s', o.session.failClosedRecords c (code.getD .auditRecordWriteFailed) reason now =
      .ok (s', failureRecords (code.getD .auditRecordWriteFailed) reason now) ∧
      s'.phase = .failed := by
    rw [AuditSession.failClosedRecords, if_neg hphase]
    exact ⟨_, rfl, rfl⟩
  obtain ⟨s', hrecords, hs'⟩ := hrecords
  have hvalid : ∀ r ∈ failureRecords (code.getD .auditRecordWriteFailed) reason now, r.Valid :=
    fun r hr => (fits_failClosedRecords hrecords r hr).valid
  have happend := AuditWriter.appendBatch_valid _ hvalid o.writer.contents
  rw [← hwriter] at happend
  simp only [Observer.failClosed, if_neg hphase, hrecords, Observer.append, happend]
  exact ⟨hs', rfl⟩

/-- The failure records of a rejected message are written, once, exactly if the rejection did not go
through `fail_checkpoint`. -/
theorem Observer.recorded_iff (hphase : o.session.phase = .active ∨ o.session.phase = .finalizing)
    (hwriter : o.writer.phase = .recording) (hrejects : o.Rejects c message now)
    (code code' : Option AuditErrorCode) (reason reason' : AuditCloseReason) (now' now'' : UInt64) :
    (o.handle c message now).ClosesOnce c code code' reason reason' now' now'' ↔
      o.session.RefusesQuietly message := by
  obtain ⟨hsession, hkept⟩ := Observer.handle_rejected hrejects
  rw [Observer.session_rejected hphase hrejects] at hsession
  constructor
  · intro ⟨hcontents, _⟩
    by_contra hloud
    -- a failed session: the first `fail_closed` has written nothing
    rw [if_neg hloud] at hsession
    have hfailed : (o.handle c message now).session.phase = .failed := by rw [hsession]; rfl
    rw [Observer.writer_failClosed_failed hfailed] at hcontents
    exact encodeRecords_failureRecords_ne_nil _ _ (List.self_eq_append_right.1 hcontents)
  · intro hquiet
    rw [if_pos hquiet] at hsession
    have hlive : (o.handle c message now).session.phase ≠ .failed := by
      rw [hsession]
      rcases hphase with h | h <;> rw [h] <;> nofun
    have hrecording : (o.handle c message now).writer.phase = .recording := by rw [hkept, hwriter]
    obtain ⟨hfailed, hcontents⟩ := Observer.failClosed_live (c := c) hlive hrecording code reason
    exact ⟨hcontents, Observer.writer_failClosed_failed hfailed code' reason'⟩

end

/-- The controller of the fixed pair, before its first record. -/
def plainObserver : Observer := .start .transparent (plainFacts .controller)

def plainCheckpoint : Checkpoint := plainObserver.session.nextCheckpoint .transparent

/-- An acknowledgment before any checkpoint is rejected and its failure close is recorded. -/
theorem recorded_unsolicited :
    plainObserver.Rejects .transparent (.ack (plainAck plainCheckpoint)) 1 ∧
      ((plainObserver.handle .transparent (.ack (plainAck plainCheckpoint)) 1).ClosesOnce
          .transparent none none .auditFailure .auditFailure 2 3 ↔
        plainObserver.session.RefusesQuietly (.ack (plainAck plainCheckpoint))) ∧
      plainObserver.session.RefusesQuietly (.ack (plainAck plainCheckpoint)) := by
  have hrejects : plainObserver.Rejects .transparent (.ack (plainAck plainCheckpoint)) 1 :=
    ⟨.invalidState "no checkpoint awaiting confirmation", by decide +kernel⟩
  exact ⟨hrejects, Observer.recorded_iff (.inl rfl) rfl hrejects none none .auditFailure .auditFailure
    2 3, by decide +kernel⟩

/-- A checkpoint that the peer has not signed is rejected, and the file of the healthy writer stays
as it was through `fail_closed`. -/
theorem failure_unrecorded :
    plainObserver.session.phase = .active ∧ plainObserver.writer.phase = .recording ∧
      (plainObserver.session.call .transparent 1 (.receive .observation plainCheckpoint)).1 =
        .error .checkpointMismatch ∧
      ((plainObserver.handle .transparent (.checkpoint .observation plainCheckpoint) 1).failClosed
        .transparent none .auditFailure 2).1.writer.contents = plainObserver.writer.contents := by
  decide +kernel

end Yonder.Audit
