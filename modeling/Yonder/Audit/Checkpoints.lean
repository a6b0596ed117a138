import Yonder.Audit.Observer
import Yonder.Audit.Facts

/-!
# The checkpoint calls of one session

Any sequence of recording and checkpoint calls on one session, with arbitrary received messages.
`Trace` adds to the session the last checkpoint and the last acknowledgment it accepted. `Built` is the
state of a session after its own checkpoint.

`Effect` lists everything a call can do to the exchange; the invariant `Trace.Inv` and
`CheckpointSafe` are read off it.

`run_checkpointSafe` proves `CheckpointSafe` of every state of every run. The received counter moves
by one. The sent counter moves to the last checkpoint sent, which is one further when no checkpoint
was built while another was unconfirmed; the session itself does not enforce that. An acknowledgment
before any checkpoint is refused, but does not fail the session.
-/

namespace Yonder.Audit

open Lib Wire

/-! ## Accepting checkpoints and acknowledgments -/

/-- The sequence of the last checkpoint of the peer, or zero. -/
def AuditSession.lastReceivedSequence (s : AuditSession) : UInt64 :=
  (s.lastReceivedCheckpoint.map Prod.fst).getD 0

/-- What a session keeps while it exchanges evidence. -/
structure SameSession (s s' : AuditSession) : Prop extends SameShared s s' where
  phase_eq : s'.phase = s.phase

/-- The state after an own checkpoint. -/
structure Built (c : Crypto) (s s' : AuditSession) (k : Checkpoint) : Prop extends
    SameSession s s' where
  checkpoint_eq : k = s.nextCheckpoint c
  sent_eq : s'.lastSentCheckpoint = some k
  next_eq : s'.nextCheckpointSequence = k.sequence + 1
  received_eq : s'.lastReceivedCheckpoint = s.lastReceivedCheckpoint
  confirmedSent_eq : s'.lastConfirmedSent = s.lastConfirmedSent
  confirmedReceived_eq : s'.lastConfirmedReceived = s.lastConfirmedReceived

section

variable {c : Crypto} {s s' : AuditSession} {now : UInt64} {rs : List Record}

theorem lastReceivedSequence_congr (h : s'.lastReceivedCheckpoint = s.lastReceivedCheckpoint) :
    s'.lastReceivedSequence = s.lastReceivedSequence := by
  rw [AuditSession.lastReceivedSequence, AuditSession.lastReceivedSequence, h]

theorem built_of_ok {policy : CheckpointPolicy} {k : Checkpoint}
    (h : s.buildCheckpointWithPolicy c now policy = .ok (s', k, rs)) : Built c s s' k := by
  obtain ⟨rfl, rfl, -⟩ := buildCheckpointWithPolicy_ok h
  exact ⟨⟨⟨rfl, rfl, rfl, rfl⟩, rfl⟩, rfl, rfl, rfl, rfl, rfl, rfl⟩

/-- The phases in which a checkpoint of a policy may be received. -/
def CheckpointPolicy.admits : CheckpointPolicy → Phase → Prop
  | .observation, phase => phase = .active ∨ phase = .finalizing
  | .exactPrefix, phase => phase = .finalizing

theorem sequence_ne_succ (a : UInt64) : a ≠ a + 1 := by
  intro h
  have hnat := congrArg UInt64.toNat h
  have hone : (1 : UInt64).toNat = 1 := rfl
  rw [UInt64.toNat_add, hone] at hnat
  have hlt := a.toNat_lt
  omega

end

/-! ## The calls -/

/-- The calls. A final checkpoint is built and received under the exact policy. -/
inductive SessionCall where
  | record (op : RecordOp)
  | build (policy : CheckpointPolicy)
  | receive (policy : CheckpointPolicy) (k : Checkpoint)
  | ack (a : CheckpointAck)
  | closeDirections

section

variable (c : Crypto)

/-- One call: the records it gives or its error, and the session it leaves. -/
def AuditSession.call (s : AuditSession) (now : UInt64) :
    SessionCall → Except AuditError (List Record) × AuditSession
  | .record op =>
    match op.apply c s now with
    | .error e => (.error e, s)
    | .ok (s', rs) => (.ok rs, s')
  | .build policy =>
    match s.buildCheckpointWithPolicy c now policy with
    | .error e => (.error e, s)
    | .ok (s', _, rs) => (.ok rs, s')
  | .receive policy k =>
    let (result, s') := s.receiveCheckpointWithPolicy c k now policy
    (result.map Prod.snd, s')
  | .ack a =>
    let (result, s') := s.receiveCheckpointAck c a now
    (result.map fun evidence => evidence.getD [], s')
  | .closeDirections =>
    match s.closeDirections c with
    | .error e => (.error e, s)
    | .ok (s', rs) => (.ok rs, s')

/-- A session with the last messages it accepted. -/
structure Trace where
  session : AuditSession
  accepted : Option Checkpoint := none
  confirmed : Option CheckpointAck := none
  /-- No checkpoint was built while another was unconfirmed. -/
  paced : Bool := true

/-- The last checkpoint that was sent, if any, is confirmed. -/
def AuditSession.settled (s : AuditSession) : Bool :=
  match s.lastSentCheckpoint with
  | none => true
  | some sent => decide (sent.sequence = s.lastConfirmedSent)

def Trace.call (t : Trace) (now : UInt64) (a : SessionCall) : Trace :=
  match a, t.session.call c now a with
  | .receive _ k, (.ok _, s') => { t with session := s', accepted := some k }
  | .ack a, (.ok _, s') => { t with session := s', confirmed := some a }
  | .build _, (.ok _, s') => { t with session := s', paced := t.paced && t.session.settled }
  | _, (_, s') => { t with session := s' }

/-- A run of calls, each with its time. -/
def Trace.run (t : Trace) : List (SessionCall × UInt64) → Trace
  | [] => t
  | (a, now) :: rest => (t.call c now a).run rest

end

/-! ## What a call does -/

section

variable {c : Crypto} {s s' : AuditSession} {now : UInt64} {rs : List Record} {e : AuditError}

/-- A rejected checkpoint fails the session; one that comes in the wrong phase is refused. -/
theorem receiveCheckpointWithPolicy_error {policy : CheckpointPolicy} {k : Checkpoint}
    (h : s.receiveCheckpointWithPolicy c k now policy = (.error e, s')) :
    ¬ policy.admits s.phase ∧ s' = s ∨ policy.admits s.phase ∧ s' = s.failed := by
  unfold AuditSession.receiveCheckpointWithPolicy at h
  dsimp only at h
  split at h
  case h_1 error hphase =>
    refine .inl ⟨?_, (Prod.mk.inj h).2.symm⟩
    intro hadmits
    cases policy with
    | observation =>
      have hlive : s.phase = .active ∨ s.phase = .finalizing := hadmits
      dsimp only at hphase
      rw [if_pos hlive] at hphase
      cases hphase
    | exactPrefix =>
      have hfinal : s.phase = .finalizing := hadmits
      simp [AuditSession.requirePhase, hfinal] at hphase
  case h_2 hphase =>
    have hadmits : policy.admits s.phase := by
      cases policy with
      | observation =>
        by_contra hnot
        have hdead : ¬ (s.phase = .active ∨ s.phase = .finalizing) := hnot
        dsimp only at hphase
        rw [if_neg hdead] at hphase
        cases hphase
      | exactPrefix => exact requirePhase_ok hphase
    refine .inr ⟨hadmits, ?_⟩
    -- every error past the phase check is `fail_checkpoint`
    split_ifs at h <;> first | exact (Prod.mk.inj h).2.symm | cases (Prod.mk.inj h).1

/-- A rejected acknowledgment fails the session, unless the phase is wrong or nothing was sent. -/
theorem receiveCheckpointAck_error {a : CheckpointAck}
    (h : s.receiveCheckpointAck c a now = (.error e, s')) :
    ¬ (s.phase = .active ∨ s.phase = .finalizing) ∧ s' = s ∨
      a.sessionId = s.facts.sessionId ∧ s.lastSentCheckpoint = none ∧ s' = s ∨
      (s.phase = .active ∨ s.phase = .finalizing) ∧
        (a.sessionId ≠ s.facts.sessionId ∨ s.lastSentCheckpoint ≠ none) ∧ s' = s.failed := by
  unfold AuditSession.receiveCheckpointAck at h
  by_cases hphase : s.phase = .active ∨ s.phase = .finalizing
  · rw [if_neg (not_not.2 hphase)] at h
    by_cases hid : a.sessionId = s.facts.sessionId
    · rw [if_neg (not_not.2 hid)] at h
      cases hsent : s.lastSentCheckpoint with
      | none =>
        rw [hsent] at h
        exact .inr (.inl ⟨hid, rfl, (Prod.mk.inj h).2.symm⟩)
      | some sent =>
        rw [hsent] at h
        dsimp only at h
        refine .inr (.inr ⟨hphase, .inr nofun, ?_⟩)
        split_ifs at h <;> first | exact (Prod.mk.inj h).2.symm | cases (Prod.mk.inj h).1
    · rw [if_pos hid] at h
      exact .inr (.inr ⟨hphase, .inl hid, (Prod.mk.inj h).2.symm⟩)
  · rw [if_pos hphase] at h
    exact .inl ⟨hphase, (Prod.mk.inj h).2.symm⟩

/-- What the checkpoint exchange has reached is the same in both states. -/
structure SameCounters (s s' : AuditSession) : Prop where
  facts_eq : s'.facts = s.facts
  next_eq : s'.nextCheckpointSequence = s.nextCheckpointSequence
  sent_eq : s'.lastSentCheckpoint = s.lastSentCheckpoint
  received_eq : s'.lastReceivedCheckpoint = s.lastReceivedCheckpoint
  confirmedSent_eq : s'.lastConfirmedSent = s.lastConfirmedSent
  confirmedReceived_eq : s'.lastConfirmedReceived = s.lastConfirmedReceived

theorem SameCounters.refl (s : AuditSession) : SameCounters s s := ⟨rfl, rfl, rfl, rfl, rfl, rfl⟩

theorem sameCounters_failed (s : AuditSession) : SameCounters s s.failed :=
  ⟨rfl, rfl, rfl, rfl, rfl, rfl⟩

theorem SameExchange.sameCounters (h : SameExchange s s') : SameCounters s s' :=
  ⟨h.facts_eq, h.next_eq, h.sent_eq, h.received_eq, h.confirmedSent_eq, h.confirmedReceived_eq⟩

theorem sameCounters_closeDirections (h : s.closeDirections c = .ok (s', rs)) :
    SameCounters s s' := by
  obtain ⟨s₁, rs₁, s₂, rs₂, hinput, houtput, rfl, -⟩ := closeDirections_ok h
  have hin := sameExchange_inputBlocks (c := c) { s with inputNormalizer := ⟨[], true⟩ }
    s.inputNormalizer.finish
  have hout := sameExchange_outputBlocks (c := c) { s₁ with outputNormalizer := ⟨[], true⟩ }
    s.outputNormalizer.finish
  rw [hinput] at hin
  rw [houtput] at hout
  exact ⟨hout.facts_eq.trans hin.facts_eq, hout.next_eq.trans hin.next_eq,
    hout.sent_eq.trans hin.sent_eq, hout.received_eq.trans hin.received_eq,
    hout.confirmedSent_eq.trans hin.confirmedSent_eq,
    hout.confirmedReceived_eq.trans hin.confirmedReceived_eq⟩

/-- A message that the peer's session key has signed for this session. -/
def PeerSigned (c : Crypto) (s : AuditSession) (sessionId : Digest32) (input : Bytes)
    (signature : Ed25519Signature) : Prop :=
  sessionId = s.facts.sessionId ∧ c.verify s.facts.peerHello.sessionKey input signature = true

/-- Everything a call can do to the checkpoint exchange. -/
inductive Effect (c : Crypto) (s : AuditSession) (now : UInt64) :
    SessionCall → Except AuditError (List Record) → AuditSession → Prop where
  /-- A recording call, or one that closes the directions. -/
  | unrelated {a : SessionCall} {result : Except AuditError (List Record)} {s' : AuditSession} :
      (∀ policy, a ≠ .build policy) → (∀ policy k, a ≠ .receive policy k) → (∀ k, a ≠ .ack k) →
      SameCounters s s' → Effect c s now a result s'
  | built {policy : CheckpointPolicy} {k : Checkpoint} {rs : List Record} {s' : AuditSession} :
      k.sequence = s.nextCheckpointSequence → s'.facts = s.facts →
      s'.lastSentCheckpoint = some k → s'.nextCheckpointSequence = k.sequence + 1 →
      s'.lastReceivedCheckpoint = s.lastReceivedCheckpoint →
      s'.lastConfirmedSent = s.lastConfirmedSent →
      s'.lastConfirmedReceived = s.lastConfirmedReceived →
      Effect c s now (.build policy) (.ok rs) s'
  | unbuilt {policy : CheckpointPolicy} {e : AuditError} :
      Effect c s now (.build policy) (.error e) s
  | received {policy : CheckpointPolicy} {k : Checkpoint} {rs : List Record} {s' : AuditSession} :
      PeerSigned c s k.sessionId k.signingInput k.signature →
      k.sequence = s.lastReceivedSequence + 1 → s'.facts = s.facts →
      s'.lastReceivedCheckpoint = some (k.sequence, c.sha256 (Checkpoint.codec.enc k)) →
      s'.lastConfirmedReceived = k.sequence →
      s'.lastConfirmedSent = s.lastConfirmedSent →
      s'.lastSentCheckpoint = s.lastSentCheckpoint →
      s'.nextCheckpointSequence = s.nextCheckpointSequence →
      Effect c s now (.receive policy k) (.ok rs) s'
  | receivedAgain {policy : CheckpointPolicy} {k : Checkpoint} :
      s.lastReceivedCheckpoint = some (k.sequence, c.sha256 (Checkpoint.codec.enc k)) →
      Effect c s now (.receive policy k) (.ok []) s
  | refused {policy : CheckpointPolicy} {k : Checkpoint} {e : AuditError} :
      ¬ policy.admits s.phase → Effect c s now (.receive policy k) (.error e) s
  | rejected {policy : CheckpointPolicy} {k : Checkpoint} {e : AuditError} :
      policy.admits s.phase → Effect c s now (.receive policy k) (.error e) s.failed
  | confirmed {a : CheckpointAck} {sent : Checkpoint} {rs : List Record} {s' : AuditSession} :
      s.lastSentCheckpoint = some sent → PeerSigned c s a.sessionId a.signingInput a.signature →
      Confirms a (checkpointRef c sent) → s.lastConfirmedSent < a.sequence →
      s'.facts = s.facts → s'.lastConfirmedSent = a.sequence →
      s'.lastReceivedCheckpoint = s.lastReceivedCheckpoint →
      s'.lastConfirmedReceived = s.lastConfirmedReceived →
      s'.lastSentCheckpoint = s.lastSentCheckpoint →
      s'.nextCheckpointSequence = s.nextCheckpointSequence →
      Effect c s now (.ack a) (.ok rs) s'
  | confirmedAgain {a : CheckpointAck} :
      a.sequence ≤ s.lastConfirmedSent → Effect c s now (.ack a) (.ok []) s
  | ackRefused {a : CheckpointAck} {e : AuditError} :
      ¬ (s.phase = .active ∨ s.phase = .finalizing) → Effect c s now (.ack a) (.error e) s
  | ackUnsolicited {a : CheckpointAck} {e : AuditError} :
      a.sessionId = s.facts.sessionId → s.lastSentCheckpoint = none →
      Effect c s now (.ack a) (.error e) s
  | ackRejected {a : CheckpointAck} {e : AuditError} :
      (s.phase = .active ∨ s.phase = .finalizing) →
      (a.sessionId ≠ s.facts.sessionId ∨ s.lastSentCheckpoint ≠ none) →
      Effect c s now (.ack a) (.error e) s.failed

theorem effect_record (op : RecordOp) :
    Effect c s now (.record op) (s.call c now (.record op)).1 (s.call c now (.record op)).2 := by
  refine .unrelated nofun nofun nofun ?_
  cases hop : op.apply c s now with
  | error e =>
    simp only [AuditSession.call, hop]
    exact .refl s
  | ok got =>
    simp only [AuditSession.call, hop]
    exact (RecordOp.apply_sameExchange op hop).sameCounters

theorem effect_build (policy : CheckpointPolicy) :
    Effect c s now (.build policy) (s.call c now (.build policy)).1
      (s.call c now (.build policy)).2 := by
  cases hbuild : s.buildCheckpointWithPolicy c now policy with
  | error e =>
    simp only [AuditSession.call, hbuild]
    exact .unbuilt
  | ok got =>
    simp only [AuditSession.call, hbuild]
    have hb := built_of_ok hbuild
    refine .built ?_ hb.facts_eq hb.sent_eq hb.next_eq hb.received_eq hb.confirmedSent_eq
      hb.confirmedReceived_eq
    rw [hb.checkpoint_eq]
    rfl

theorem effect_receive (policy : CheckpointPolicy) (k : Checkpoint) :
    Effect c s now (.receive policy k) (s.call c now (.receive policy k)).1
      (s.call c now (.receive policy k)).2 := by
  rcases hreceive : s.receiveCheckpointWithPolicy c k now policy with ⟨result, s'⟩
  simp only [AuditSession.call, hreceive]
  cases result with
  | error e =>
    rcases receiveCheckpointWithPolicy_error hreceive with ⟨hphase, rfl⟩ | ⟨hphase, rfl⟩
    · exact .refused hphase
    · exact .rejected hphase
  | ok got =>
    obtain ⟨ack, rs⟩ := got
    obtain ⟨hid, hsigned, -, rfl, ⟨rfl, rfl, hlast⟩ | ⟨hseq, rfl, -⟩⟩ :=
      receiveCheckpointWithPolicy_ok hreceive
    · exact .receivedAgain hlast
    · exact .received ⟨hid, hsigned⟩ hseq rfl rfl rfl rfl rfl rfl

theorem effect_ack (a : CheckpointAck) :
    Effect c s now (.ack a) (s.call c now (.ack a)).1 (s.call c now (.ack a)).2 := by
  rcases hack : s.receiveCheckpointAck c a now with ⟨result, s'⟩
  simp only [AuditSession.call, hack]
  cases result with
  | error e =>
    rcases receiveCheckpointAck_error hack with
      ⟨hphase, rfl⟩ | ⟨hid, hnone, rfl⟩ | ⟨hphase, hmismatch, rfl⟩
    · exact .ackRefused hphase
    · exact .ackUnsolicited hid hnone
    · exact .ackRejected hphase hmismatch
  | ok evidence =>
    obtain ⟨sent, hsent, hconfirms, hid, hsigned, ⟨hle, rfl, rfl⟩ | ⟨hlt, rfl, -⟩⟩ :=
      receiveCheckpointAck_ok hack
    · exact .confirmedAgain hle
    · exact .confirmed hsent ⟨hid, hsigned⟩ hconfirms hlt rfl rfl rfl rfl rfl rfl

theorem effect_call (a : SessionCall) :
    Effect c s now a (s.call c now a).1 (s.call c now a).2 := by
  cases a with
  | record op => exact effect_record op
  | build policy => exact effect_build policy
  | receive policy k => exact effect_receive policy k
  | ack a => exact effect_ack a
  | closeDirections =>
    refine .unrelated nofun nofun nofun ?_
    cases hclose : s.closeDirections c with
    | error e =>
      simp only [AuditSession.call, hclose]
      exact .refl s
    | ok got =>
      simp only [AuditSession.call, hclose]
      exact sameCounters_closeDirections hclose

/-- A failed session refuses every call and stays as it is. -/
theorem call_of_failed (hfailed : s.phase = .failed) (a : SessionCall) :
    (∃ e, (s.call c now a).1 = .error e) ∧ (s.call c now a).2 = s := by
  have hnot : ¬ (s.phase = .active ∨ s.phase = .finalizing) := by
    rw [hfailed]
    rintro (h | h) <;> cases h
  cases a with
  | record op =>
    cases hop : op.apply c s now with
    | error e => simp only [AuditSession.call, hop, Except.error.injEq, exists_eq', and_self]
    | ok got => exact absurd (.inl (RecordOp.apply_active op hop)) hnot
  | build policy =>
    cases hbuild : s.buildCheckpointWithPolicy c now policy with
    | error e => simp only [AuditSession.call, hbuild, Except.error.injEq, exists_eq', and_self]
    | ok got =>
      exfalso
      cases policy <;>
        simp [AuditSession.buildCheckpointWithPolicy, AuditSession.requireRecordable,
          AuditSession.requirePhase, hfailed, bind, Except.bind] at hbuild
  | receive policy k =>
    have hadmits : ¬ policy.admits s.phase := by
      intro h
      cases policy with
      | observation => exact hnot h
      | exactPrefix => exact hnot (.inr h)
    rcases hreceive : s.receiveCheckpointWithPolicy c k now policy with ⟨result, s'⟩
    simp only [AuditSession.call, hreceive]
    cases result with
    | error e =>
      rcases receiveCheckpointWithPolicy_error hreceive with ⟨-, rfl⟩ | ⟨hphase, -⟩
      · exact ⟨⟨e, rfl⟩, rfl⟩
      · exact absurd hphase hadmits
    | ok got =>
      exfalso
      cases policy <;>
        simp [AuditSession.receiveCheckpointWithPolicy, AuditSession.requirePhase, hfailed]
          at hreceive
  | ack a =>
    simp only [AuditSession.call, AuditSession.receiveCheckpointAck, if_pos hnot]
    exact ⟨⟨_, rfl⟩, trivial⟩
  | closeDirections =>
    cases hclose : s.closeDirections c with
    | error e => simp only [AuditSession.call, hclose, Except.error.injEq, exists_eq', and_self]
    | ok got => exact absurd (.inl (closeDirections_active hclose)) hnot

end

/-! ## Runs -/

section

variable {c : Crypto} {t : Trace}

/-- What the counters remember of the messages that were accepted. -/
structure Trace.Inv (c : Crypto) (t : Trace) : Prop where
  received : t.session.lastReceivedCheckpoint =
    t.accepted.map fun k => (k.sequence, c.sha256 (Checkpoint.codec.enc k))
  confirmedReceived : t.session.lastConfirmedReceived = t.session.lastReceivedSequence
  confirmedSent : ∀ a, t.confirmed = some a → a.sequence ≤ t.session.lastConfirmedSent
  next : ∀ sent, t.session.lastSentCheckpoint = some sent →
    t.session.nextCheckpointSequence = sent.sequence + 1
  first : t.session.lastSentCheckpoint = none →
    t.session.nextCheckpointSequence = 1 ∧ t.session.lastConfirmedSent = 0
  /-- A paced session has at most one checkpoint to confirm. -/
  paced : t.paced = true → ∀ sent, t.session.lastSentCheckpoint = some sent →
    sent.sequence = t.session.lastConfirmedSent ∨ sent.sequence = t.session.lastConfirmedSent + 1

theorem inv_start (facts : SessionFacts) : Trace.Inv c { session := .start facts } where
  received := rfl
  confirmedReceived := rfl
  confirmedSent := nofun
  next := nofun
  first _ := ⟨rfl, rfl⟩
  paced _ := nofun

theorem Trace.Inv.same (h : t.Inv c) {s' : AuditSession} (hsame : SameCounters t.session s') :
    Trace.Inv c { t with session := s' } where
  received := hsame.received_eq.trans h.received
  confirmedReceived := by
    have hlast := lastReceivedSequence_congr hsame.received_eq
    exact (hsame.confirmedReceived_eq.trans h.confirmedReceived).trans hlast.symm
  confirmedSent a ha := by
    show a.sequence ≤ s'.lastConfirmedSent
    rw [hsame.confirmedSent_eq]
    exact h.confirmedSent a ha
  next sent hsent := hsame.next_eq.trans (h.next sent (hsame.sent_eq.symm.trans hsent))
  first hnone := by
    obtain ⟨hnext, hzero⟩ := h.first (hsame.sent_eq.symm.trans hnone)
    exact ⟨hsame.next_eq.trans hnext, hsame.confirmedSent_eq.trans hzero⟩
  paced hpaced sent hsent := by
    show sent.sequence = s'.lastConfirmedSent ∨ sent.sequence = s'.lastConfirmedSent + 1
    rw [hsame.confirmedSent_eq]
    exact h.paced hpaced sent (hsame.sent_eq.symm.trans hsent)

/-- The next checkpoint of a settled session is the one after the last confirmed. -/
theorem Trace.Inv.next_of_settled (h : t.Inv c) (hsettled : t.session.settled = true) :
    t.session.nextCheckpointSequence = t.session.lastConfirmedSent + 1 := by
  unfold AuditSession.settled at hsettled
  cases hsent : t.session.lastSentCheckpoint with
  | none =>
    obtain ⟨hnext, hzero⟩ := h.first hsent
    rw [hnext, hzero]
    rfl
  | some sent =>
    rw [hsent] at hsettled
    rw [h.next sent hsent, of_decide_eq_true hsettled]

theorem Trace.session_call (now : UInt64) (a : SessionCall) :
    (t.call c now a).session = (t.session.call c now a).2 := by
  unfold Trace.call
  rcases t.session.call c now a with ⟨_ | _, s'⟩ <;> cases a <;> rfl

theorem Trace.Inv.call (h : t.Inv c) (now : UInt64) (a : SessionCall) : (t.call c now a).Inv c := by
  have heffect : Effect c t.session now a _ _ := effect_call a
  unfold Trace.call
  rcases hcall : t.session.call c now a with ⟨result, s'⟩
  rw [hcall] at heffect
  cases heffect with
  | unrelated hbuild hreceive hack hsame =>
    cases a with
    | record op => exact h.same hsame
    | closeDirections => exact h.same hsame
    | build policy => exact absurd rfl (hbuild policy)
    | receive policy k => exact absurd rfl (hreceive policy k)
    | ack a => exact absurd rfl (hack a)
  | built hseq hfacts hsent hnext hreceived hcsent hcreceived =>
    refine ⟨hreceived.trans h.received, ?_, ?_, ?_, ?_, ?_⟩
    · exact (hcreceived.trans h.confirmedReceived).trans (lastReceivedSequence_congr hreceived).symm
    · intro a ha
      show a.sequence ≤ s'.lastConfirmedSent
      rw [hcsent]
      exact h.confirmedSent a ha
    · intro sent hlast
      cases hsent.symm.trans hlast
      exact hnext
    · intro hnone
      cases hsent.symm.trans hnone
    · intro hpaced sent hlast
      cases hsent.symm.trans hlast
      have hsettled := (Bool.and_eq_true_iff.1 hpaced).2
      refine .inr ?_
      show _ = s'.lastConfirmedSent + 1
      rw [hcsent, hseq, h.next_of_settled hsettled]
  | unbuilt => exact h.same (.refl _)
  | received hsigned hseq hfacts hreceived hcreceived hcsent hsent hnext =>
    refine ⟨hreceived, ?_, ?_, ?_, ?_, ?_⟩
    · show s'.lastConfirmedReceived = s'.lastReceivedSequence
      rw [hcreceived, AuditSession.lastReceivedSequence, hreceived]
      rfl
    · intro a ha
      show a.sequence ≤ s'.lastConfirmedSent
      rw [hcsent]
      exact h.confirmedSent a ha
    · exact fun sent hlast => hnext.trans (h.next sent (hsent.symm.trans hlast))
    · intro hnone
      obtain ⟨hone, hzero⟩ := h.first (hsent.symm.trans hnone)
      exact ⟨hnext.trans hone, hcsent.trans hzero⟩
    · intro hpaced sent hlast
      show _ = s'.lastConfirmedSent ∨ _ = s'.lastConfirmedSent + 1
      rw [hcsent]
      exact h.paced hpaced sent (hsent.symm.trans hlast)
  | receivedAgain hlast =>
    exact ⟨hlast, h.confirmedReceived, h.confirmedSent, h.next, h.first, h.paced⟩
  | refused _ => exact h.same (.refl _)
  | rejected _ => exact h.same (sameCounters_failed _)
  | confirmed hlast hsigned hconfirms hlt hfacts hcsent hreceived hcreceived hsent hnext =>
    refine ⟨hreceived.trans h.received, ?_, ?_, ?_, ?_, ?_⟩
    · exact (hcreceived.trans h.confirmedReceived).trans (lastReceivedSequence_congr hreceived).symm
    · intro a ha
      cases ha
      exact hcsent ▸ UInt64.le_refl _
    · exact fun sent hlast => hnext.trans (h.next sent (hsent.symm.trans hlast))
    · intro hnone
      cases (hsent.symm.trans hnone).symm.trans hlast
    · intro hpaced sent hsent'
      cases (hsent.symm.trans hsent').symm.trans hlast
      exact .inl (hconfirms.1.symm.trans hcsent.symm)
  | confirmedAgain hle =>
    refine ⟨h.received, h.confirmedReceived, ?_, h.next, h.first, h.paced⟩
    intro a ha
    cases ha
    exact hle
  | ackRefused _ => exact h.same (.refl _)
  | ackUnsolicited _ _ => exact h.same (.refl _)
  | ackRejected _ _ => exact h.same (sameCounters_failed _)

theorem Trace.Inv.run (h : t.Inv c) (calls : List (SessionCall × UInt64)) : (t.run c calls).Inv c := by
  induction calls generalizing t with
  | nil => exact h
  | cons call calls ih => exact ih (h.call call.2 call.1)

/-- A failed session stays as it is for the rest of the run. -/
theorem Trace.run_of_failed (hfailed : t.session.phase = .failed)
    (calls : List (SessionCall × UInt64)) : (t.run c calls).session = t.session := by
  induction calls generalizing t with
  | nil => rfl
  | cons call calls ih =>
    have hsame : (t.call c call.2 call.1).session = t.session := by
      rw [Trace.session_call]
      exact (call_of_failed hfailed call.1).2
    rw [Trace.run, ih (by rw [hsame, hfailed]), hsame]

/-- What holds of a reached state, whatever the next call is. -/
structure CheckpointSafe (c : Crypto) (t : Trace) : Prop where
  /-- Only the checkpoint with the next sequence, signed by the peer, moves the received counter. -/
  received : ∀ now a, (t.session.call c now a).2.lastConfirmedReceived =
      t.session.lastConfirmedReceived ∨
    ∃ policy k rs, a = .receive policy k ∧ (t.session.call c now a).1 = .ok rs ∧
      PeerSigned c t.session k.sessionId k.signingInput k.signature ∧
      k.sequence = t.session.lastConfirmedReceived + 1 ∧
      (t.session.call c now a).2.lastConfirmedReceived = k.sequence
  /-- Only an acknowledgment of the last checkpoint sent, signed by the peer, moves the sent
  counter: upwards, and by one in a paced run. -/
  sent : ∀ now a, (t.session.call c now a).2.lastConfirmedSent = t.session.lastConfirmedSent ∨
    ∃ ack sent rs, a = .ack ack ∧ (t.session.call c now a).1 = .ok rs ∧
      t.session.lastSentCheckpoint = some sent ∧
      PeerSigned c t.session ack.sessionId ack.signingInput ack.signature ∧
      Confirms ack (checkpointRef c sent) ∧ t.session.lastConfirmedSent < ack.sequence ∧
      (t.paced = true → ack.sequence = t.session.lastConfirmedSent + 1) ∧
      (t.session.call c now a).2.lastConfirmedSent = ack.sequence
  /-- A repeat of the last accepted checkpoint gives no record and moves no counter or chain. -/
  checkpointAgain : ∀ now policy k, t.accepted = some k →
    ((t.session.call c now (.receive policy k)).1 = .ok [] ∨
      ∃ e, (t.session.call c now (.receive policy k)).1 = .error e) ∧
    ((t.session.call c now (.receive policy k)).2 = t.session ∨
      (t.session.call c now (.receive policy k)).2 = t.session.failed)
  ackAgain : ∀ now a, t.confirmed = some a →
    ((t.session.call c now (.ack a)).1 = .ok [] ∨
      ∃ e, (t.session.call c now (.ack a)).1 = .error e) ∧
    ((t.session.call c now (.ack a)).2 = t.session ∨
      (t.session.call c now (.ack a)).2 = t.session.failed)
  /-- A checkpoint that is rejected in a phase that takes checkpoints fails the session. -/
  checkpointRejected : ∀ now policy k e, policy.admits t.session.phase →
    (t.session.call c now (.receive policy k)).1 = .error e →
    (t.session.call c now (.receive policy k)).2 = t.session.failed
  /-- So does an acknowledgment, except one of this session that comes before any checkpoint. -/
  ackRejected : ∀ now a e, t.session.phase = .active ∨ t.session.phase = .finalizing →
    (t.session.call c now (.ack a)).1 = .error e →
    (t.session.call c now (.ack a)).2 = t.session.failed ∨
      a.sessionId = t.session.facts.sessionId ∧ t.session.lastSentCheckpoint = none ∧
        (t.session.call c now (.ack a)).2 = t.session
  /-- A failed session refuses every call for ever, and nothing in it changes. -/
  poisoned : t.session.phase = .failed → ∀ later now a,
    (t.run c later).session = t.session ∧
      (∃ e, ((t.run c later).session.call c now a).1 = .error e) ∧
      ((t.run c later).session.call c now a).2 = t.session

theorem Trace.Inv.received_safe (h : t.Inv c) (now : UInt64) (a : SessionCall) :
    (t.session.call c now a).2.lastConfirmedReceived = t.session.lastConfirmedReceived ∨
    ∃ policy k rs, a = .receive policy k ∧ (t.session.call c now a).1 = .ok rs ∧
      PeerSigned c t.session k.sessionId k.signingInput k.signature ∧
      k.sequence = t.session.lastConfirmedReceived + 1 ∧
      (t.session.call c now a).2.lastConfirmedReceived = k.sequence := by
  have heffect : Effect c t.session now a _ _ := effect_call a
  rcases hcall : t.session.call c now a with ⟨result, s'⟩
  rw [hcall] at heffect
  cases heffect with
  | unrelated _ _ _ hsame => exact .inl hsame.confirmedReceived_eq
  | built _ _ _ _ _ _ hcreceived => exact .inl hcreceived
  | received hsigned hseq _ _ hcreceived _ _ _ =>
    refine .inr ⟨_, _, _, rfl, rfl, hsigned, ?_, hcreceived⟩
    rw [hseq, h.confirmedReceived]
  | confirmed _ _ _ _ _ _ _ hcreceived _ _ => exact .inl hcreceived
  | unbuilt => exact .inl rfl
  | receivedAgain _ => exact .inl rfl
  | refused _ => exact .inl rfl
  | rejected _ => exact .inl rfl
  | confirmedAgain _ => exact .inl rfl
  | ackRefused _ => exact .inl rfl
  | ackUnsolicited _ _ => exact .inl rfl
  | ackRejected _ _ => exact .inl rfl

theorem Trace.Inv.sent_safe (h : t.Inv c) (now : UInt64) (a : SessionCall) :
    (t.session.call c now a).2.lastConfirmedSent = t.session.lastConfirmedSent ∨
    ∃ ack sent rs, a = .ack ack ∧ (t.session.call c now a).1 = .ok rs ∧
      t.session.lastSentCheckpoint = some sent ∧
      PeerSigned c t.session ack.sessionId ack.signingInput ack.signature ∧
      Confirms ack (checkpointRef c sent) ∧ t.session.lastConfirmedSent < ack.sequence ∧
      (t.paced = true → ack.sequence = t.session.lastConfirmedSent + 1) ∧
      (t.session.call c now a).2.lastConfirmedSent = ack.sequence := by
  have heffect : Effect c t.session now a _ _ := effect_call a
  rcases hcall : t.session.call c now a with ⟨result, s'⟩
  rw [hcall] at heffect
  cases heffect with
  | unrelated _ _ _ hsame => exact .inl hsame.confirmedSent_eq
  | built _ _ _ _ _ hcsent _ => exact .inl hcsent
  | received _ _ _ _ _ hcsent _ _ => exact .inl hcsent
  | confirmed hlast hsigned hconfirms hlt _ hcsent _ _ _ _ =>
    refine .inr ⟨_, _, _, rfl, rfl, hlast, hsigned, hconfirms, hlt, ?_, hcsent⟩
    intro hpaced
    have hseq : _ = _ := hconfirms.sequence_eq
    -- a checkpoint that is newer than the confirmed one is the single open one
    rcases h.paced hpaced _ hlast with heq | hnext
    · rw [hseq] at hlt
      exact absurd (heq ▸ hlt) (UInt64.lt_irrefl _)
    · exact hseq.trans hnext
  | unbuilt => exact .inl rfl
  | receivedAgain _ => exact .inl rfl
  | refused _ => exact .inl rfl
  | rejected _ => exact .inl rfl
  | confirmedAgain _ => exact .inl rfl
  | ackRefused _ => exact .inl rfl
  | ackUnsolicited _ _ => exact .inl rfl
  | ackRejected _ _ => exact .inl rfl

theorem Trace.Inv.checkpointAgain (h : t.Inv c) (now : UInt64) (policy : CheckpointPolicy)
    {k : Checkpoint} (haccepted : t.accepted = some k) :
    ((t.session.call c now (.receive policy k)).1 = .ok [] ∨
      ∃ e, (t.session.call c now (.receive policy k)).1 = .error e) ∧
    ((t.session.call c now (.receive policy k)).2 = t.session ∨
      (t.session.call c now (.receive policy k)).2 = t.session.failed) := by
  have heffect : Effect c t.session now (.receive policy k) _ _ := effect_receive policy k
  rcases hcall : t.session.call c now (.receive policy k) with ⟨result, s'⟩
  rw [hcall] at heffect
  cases heffect with
  | unrelated _ hreceive _ _ => exact absurd rfl (hreceive policy k)
  | received _ hseq _ _ _ _ _ _ =>
    -- the accepted checkpoint has the sequence the session has reached, not the next one
    have hlast : t.session.lastReceivedSequence = k.sequence := by
      rw [AuditSession.lastReceivedSequence, h.received, haccepted]
      rfl
    rw [hlast] at hseq
    exact absurd hseq (sequence_ne_succ k.sequence)
  | receivedAgain _ => exact ⟨.inl rfl, .inl rfl⟩
  | refused _ => exact ⟨.inr ⟨_, rfl⟩, .inl rfl⟩
  | rejected _ => exact ⟨.inr ⟨_, rfl⟩, .inr rfl⟩

theorem Trace.Inv.ackAgain (h : t.Inv c) (now : UInt64) {a : CheckpointAck}
    (hconfirmed : t.confirmed = some a) :
    ((t.session.call c now (.ack a)).1 = .ok [] ∨
      ∃ e, (t.session.call c now (.ack a)).1 = .error e) ∧
    ((t.session.call c now (.ack a)).2 = t.session ∨
      (t.session.call c now (.ack a)).2 = t.session.failed) := by
  have heffect : Effect c t.session now (.ack a) _ _ := effect_ack a
  rcases hcall : t.session.call c now (.ack a) with ⟨result, s'⟩
  rw [hcall] at heffect
  cases heffect with
  | unrelated _ _ hack _ => exact absurd rfl (hack a)
  | confirmed _ _ _ hlt _ _ _ _ _ _ =>
    exact absurd hlt (UInt64.not_lt.2 (h.confirmedSent a hconfirmed))
  | confirmedAgain _ => exact ⟨.inl rfl, .inl rfl⟩
  | ackRefused _ => exact ⟨.inr ⟨_, rfl⟩, .inl rfl⟩
  | ackUnsolicited _ _ => exact ⟨.inr ⟨_, rfl⟩, .inl rfl⟩
  | ackRejected _ _ => exact ⟨.inr ⟨_, rfl⟩, .inr rfl⟩

theorem call_receive_rejected {s : AuditSession} {now : UInt64} {policy : CheckpointPolicy}
    {k : Checkpoint} {e : AuditError} (hadmits : policy.admits s.phase)
    (herror : (s.call c now (.receive policy k)).1 = .error e) :
    (s.call c now (.receive policy k)).2 = s.failed := by
  have heffect : Effect c s now (.receive policy k) _ _ := effect_receive policy k
  rw [herror] at heffect
  generalize (s.call c now (.receive policy k)).2 = s' at heffect ⊢
  cases heffect with
  | unrelated _ hreceive _ _ => exact absurd rfl (hreceive policy k)
  | refused hnot => exact absurd hadmits hnot
  | rejected _ => rfl

theorem call_ack_rejected {s : AuditSession} {now : UInt64} {a : CheckpointAck} {e : AuditError}
    (hphase : s.phase = .active ∨ s.phase = .finalizing)
    (herror : (s.call c now (.ack a)).1 = .error e) :
    (s.call c now (.ack a)).2 = s.failed ∨
      a.sessionId = s.facts.sessionId ∧ s.lastSentCheckpoint = none ∧
        (s.call c now (.ack a)).2 = s := by
  have heffect : Effect c s now (.ack a) _ _ := effect_ack a
  rw [herror] at heffect
  generalize (s.call c now (.ack a)).2 = s' at heffect ⊢
  cases heffect with
  | unrelated _ _ hack _ => exact absurd rfl (hack a)
  | ackRefused hnot => exact absurd hphase hnot
  | ackUnsolicited hid hnone => exact .inr ⟨hid, hnone, rfl⟩
  | ackRejected _ _ => exact .inl rfl

theorem call_receive_refused {s : AuditSession} {now : UInt64} {policy : CheckpointPolicy}
    {k : Checkpoint} {e : AuditError} (hnot : ¬ policy.admits s.phase)
    (herror : (s.call c now (.receive policy k)).1 = .error e) :
    (s.call c now (.receive policy k)).2 = s := by
  have heffect : Effect c s now (.receive policy k) _ _ := effect_receive policy k
  rw [herror] at heffect
  generalize (s.call c now (.receive policy k)).2 = s' at heffect ⊢
  cases heffect with
  | unrelated _ hreceive _ _ => exact absurd rfl (hreceive policy k)
  | refused _ => rfl
  | rejected hadmits => exact absurd hadmits hnot

theorem call_ack_unsolicited {s : AuditSession} {now : UInt64} {a : CheckpointAck} {e : AuditError}
    (hid : a.sessionId = s.facts.sessionId) (hnone : s.lastSentCheckpoint = none)
    (herror : (s.call c now (.ack a)).1 = .error e) : (s.call c now (.ack a)).2 = s := by
  have heffect : Effect c s now (.ack a) _ _ := effect_ack a
  rw [herror] at heffect
  generalize (s.call c now (.ack a)).2 = s' at heffect ⊢
  cases heffect with
  | unrelated _ _ hack _ => exact absurd rfl (hack a)
  | ackRefused _ => rfl
  | ackUnsolicited _ _ => rfl
  | ackRejected _ hmismatch => exact absurd hnone (hmismatch.resolve_left (not_not.2 hid))

theorem Trace.Inv.checkpointSafe (h : t.Inv c) : CheckpointSafe c t where
  received := h.received_safe
  sent := h.sent_safe
  checkpointAgain now policy _ haccepted := h.checkpointAgain now policy haccepted
  ackAgain now _ hconfirmed := h.ackAgain now hconfirmed
  checkpointRejected _ _ _ _ := call_receive_rejected
  ackRejected _ _ _ := call_ack_rejected
  poisoned hfailed later now a := by
    have hsame := Trace.run_of_failed (c := c) hfailed later
    rw [hsame]
    exact ⟨rfl, call_of_failed hfailed a⟩

/-- Every state that a session reaches by any calls, with any messages, is safe. -/
theorem run_checkpointSafe (facts : SessionFacts) (calls : List (SessionCall × UInt64)) :
    CheckpointSafe c (Trace.run c { session := .start facts } calls) :=
  ((inv_start facts).run calls).checkpointSafe

end

/-! ## What the session does not enforce -/

/-- The host's acknowledgment of a checkpoint. -/
def plainAck (k : Checkpoint) : CheckpointAck :=
  (AuditSession.start (plainFacts .host)).buildAck .transparent k
    (rollingDigest (Checkpoint.codec.enc k))

def plainController : Trace := { session := .start (plainFacts .controller) }

/-- Two checkpoints in a row, of which the second is acknowledged. -/
def plainTwice : Trace := plainController.run .transparent [(.build .observation, 1),
  (.build .observation, 2)]

/-- The sent counter goes from 0 to 2 with the acknowledgment of the second of two checkpoints, and
an acknowledgment that comes before any checkpoint is an error that leaves the session active. -/
theorem sent_counter_skips :
    plainTwice.session.lastConfirmedSent = 0 ∧
      (plainTwice.session.lastSentCheckpoint.map fun k =>
        (plainTwice.call .transparent 3 (.ack (plainAck k))).session.lastConfirmedSent) = some 2 ∧
      (plainTwice.session.lastSentCheckpoint.map fun k =>
        let (result, s') := plainController.session.call .transparent 1 (.ack (plainAck k))
        (result.toOption.isSome, s'.phase)) = some (false, .active) := by
  decide +kernel

end Yonder.Audit
