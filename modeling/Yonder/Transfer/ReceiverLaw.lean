import Yonder.Transfer.Messages

/-!
# What the receiver's phases say about its messages and files

The private file has the blocks that were read, the target is made of it after `Finish`, and from
then on nothing is told but the commit. `InPhase.step`: every step of the receiver keeps this.
-/

namespace Yonder.Transfer

open Lib Wire

def ReceiverPhase.isRunning : ReceiverPhase → Bool
  | .settled _ => false
  | .ended _ => false
  | _ => true

namespace Receiver

/-- The receiver reports that it committed. -/
def commits : TransferOutcome → Bool
  | .committed _ => true
  | .committedUnconfirmed _ => true
  | _ => false

/-- The file is committed, and the messages say so. -/
structure Committed (r : Receiver) (sent taken : List FileTransferMessage) : Prop where
  target : r.target = some r.temp.content
  consistent : r.temp.Consistent
  finished : Finished taken r.temp.content
  noError : ∀ m ∈ sent, isError m = false

/-- What an outcome of the receiver says. -/
def HasOutcome (r : Receiver) (sent taken : List FileTransferMessage) (outcome : TransferOutcome) :
    Prop :=
  r.target = none ∧ .committed ∉ sent ∧
      commits outcome = false ∨
    r.Committed sent taken ∧ (outcome = .committed r.temp.written ∨
      outcome = .committedUnconfirmed r.temp.written ∨ outcome = .auditFailed r.temp.written)

/-- What the messages and the files of the receiver are in each phase. -/
def InPhase (r : Receiver) (sent taken : List FileTransferMessage) : Prop :=
  match r.phase with
  | .ready => Silent sent ∧ r.target = none ∧ NoFinish taken ∧ r.temp.Consistent ∧
      payload taken = r.temp.content
  | .receiving => Silent sent ∧ r.target = none ∧ NoFinish taken ∧ r.temp.Consistent ∧
      payload taken = r.temp.content
  | .sealing .. => Silent sent ∧ r.target = none ∧ r.temp.Consistent ∧
      Finished taken r.temp.content
  | .acknowledge => Silent sent ∧ r.Committed sent taken
  | .settled outcome | .ended outcome => r.HasOutcome sent taken outcome
  | _ => Silent sent ∧ r.target = none ∧ NoFinish taken ∧ payload taken = []

/-- What a step of a running receiver to `r` keeps, with what it wrote. -/
structure Kept (r : Receiver) (sent taken : List FileTransferMessage) (output : Output) : Prop where
  proper : ProperOutput output true r.phase.isRunning
  inPhase : r.InPhase (sent ++ framesOf output) taken

variable {r : Receiver} {sent taken : List FileTransferMessage}

/-- Before the commit a receiver may settle with anything but a commit, telling anything but
`Committed`. -/
theorem kept_settle (hsilent : Silent sent) (htarget : r.target = none) {outcome : TransferOutcome}
    (hne : commits outcome = false) {m : FileTransferMessage} (hm : m ≠ .committed)
    {output : Output} (hout : OutputOf m output) :
    (r.settle outcome).Kept sent taken output where
  proper := hout.settles
  inPhase := by
    refine .inl ⟨htarget, fun hmem => ?_, hne⟩
    rcases List.mem_append.1 hmem with hmem | hmem
    · exact hsilent.not_committed hmem
    · rcases hout.frames with hframes | hframes <;> rw [hframes] at hmem
      · exact absurd hmem List.not_mem_nil
      · exact hm (List.mem_singleton.1 hmem).symm

theorem kept_settle_silent (hsilent : Silent sent) (htarget : r.target = none)
    {outcome : TransferOutcome} (hne : commits outcome = false) :
    (r.settle outcome).Kept sent taken none :=
  kept_settle (m := .cancel) hsilent htarget hne nofun nofun

theorem kept_silent (hphase : r.InPhase sent taken) : r.Kept sent taken none where
  proper := .silent fun _ => rfl
  inPhase := by
    rw [framesOf, List.append_nil]
    exact hphase

theorem kept_whole {w : Written} (hok : framing.ok w.message) (hwhole : w.Whole)
    (hphase : r.InPhase (sent ++ [w.message]) taken) : r.Kept sent taken (some w) where
  proper := by
    refine ⟨fun w' hw' => ?_, fun _ _ => rfl, fun w' hw' hnot => ?_, fun _ => rfl⟩
    · cases hw'
      exact hok
    · cases hw'
      exact absurd hwhole hnot
  inPhase := by
    have hframes : framesOf (some w) = [w.message] := if_pos hwhole
    rwa [hframes]

theorem commits_sendFailure (e : WriteFrameError) : commits (sendFailure e) = false := by
  cases e <;> rfl

theorem commits_readFailureOutcome (e : FrameReadError) :
    commits (readFailureOutcome e) = false := by
  cases e <;> rfl

/-- A frame is written before the commit. -/
theorem kept_send (hsilent : Silent sent) (htarget : r.target = none) {m : FileTransferMessage}
    (hframed : Framed m) (hm : m ≠ .committed) (met : ReceiverMet) (next : ReceiverPhase)
    (hphase : ∀ session,
      ({ r with session := session, phase := next } : Receiver).InPhase (sent ++ [m]) taken) :
    (r.send m met next sendFailure).1.Kept sent taken (r.send m met next sendFailure).2 := by
  have hspec := writeFrameBounded_spec r.session hframed met.write
  unfold Receiver.send
  rcases hw : writeFrameBounded r.session m met.write with ⟨session, output, result⟩
  rw [hw] at hspec
  cases result with
  | error e =>
    exact kept_settle (r := { r with session := session }) hsilent htarget
      (commits_sendFailure e) hm hspec.wrote
  | ok u =>
    obtain ⟨-, w, rfl, rfl, hwhole⟩ := hspec.done rfl
    exact kept_whole (hspec.wrote w rfl).2 hwhole (hphase session)

theorem kept_accept (hsilent : Silent sent) (htarget : r.target = none) {m : FileTransferMessage}
    (next : ReceiverPhase) (hphase : ∀ session,
      ({ r with session := session, phase := next } : Receiver).InPhase sent taken) :
    (r.accept m next).Kept sent taken none := by
  unfold Receiver.accept recordReceived
  cases r.session.receive m with
  | error e => exact kept_settle_silent hsilent htarget rfl
  | ok session => exact kept_silent (hphase session)

theorem kept_failed (hsilent : Silent sent) (htarget : r.target = none) (error : FileSemanticsError)
    (fallback : FileTransferErrorCode) (met : ReceiverMet) :
    (r.failed error fallback met).1.Kept sent taken (r.failed error fallback met).2 := by
  obtain ⟨code, hout, houtcome⟩ := outputOf_failLocal error fallback met.notice
  unfold failed
  dsimp only
  rw [houtcome]
  exact kept_settle hsilent htarget rfl (by nofun) hout

/-! ### The steps -/

theorem kept_onStart (h : r.InPhase sent taken) (hphase : r.phase = .start) (met : ReceiverMet) :
    (r.onStart met).1.Kept sent taken (r.onStart met).2 := by
  simp only [InPhase, hphase] at h
  obtain ⟨hsilent, htarget, hno, hpayload⟩ := h
  unfold onStart
  split_ifs
  · exact kept_settle_silent hsilent htarget rfl
  · exact kept_send hsilent htarget (m := .downloadOpen r.remotePath) nofun nofun met .awaitOffer
      fun session => ⟨silent_append hsilent rfl, htarget, hno, hpayload⟩

theorem kept_onOffer (h : r.InPhase sent taken) (hphase : r.phase = .awaitOffer)
    (m : FileTransferMessage) : (r.onOffer m).Kept sent (taken ++ [m]) none := by
  simp only [InPhase, hphase] at h
  obtain ⟨hsilent, htarget, hno, hpayload⟩ := h
  unfold onOffer
  split
  case h_1 fileName declaredSize =>
    refine kept_accept (r := { r with fileName := fileName, declaredSize := declaredSize })
      hsilent htarget .recordStart fun session => ⟨hsilent, htarget, ?_, ?_⟩
    · exact noFinish_append hno (noFinish_singleton rfl)
    · rw [payload_append, hpayload]
      rfl
  case h_2 code =>
    exact kept_accept hsilent htarget _ fun session =>
      .inl ⟨htarget, hsilent.not_committed, rfl⟩
  case h_3 => exact kept_settle_silent hsilent htarget rfl

theorem kept_onOpen (h : r.InPhase sent taken) (hphase : r.phase = .awaitOpen)
    (m : FileTransferMessage) : (r.onOpen m).Kept sent (taken ++ [m]) none := by
  simp only [InPhase, hphase] at h
  obtain ⟨hsilent, htarget, hno, hpayload⟩ := h
  unfold onOpen
  split
  case h_1 destination fileName declaredSize =>
    refine kept_accept
      (r := { r with remotePath := destination, fileName := fileName, declaredSize := declaredSize })
      hsilent htarget .recordStart fun session => ⟨hsilent, htarget, ?_, ?_⟩
    · exact noFinish_append hno (noFinish_singleton rfl)
    · rw [payload_append, hpayload]
      rfl
  case h_2 => exact kept_settle_silent hsilent htarget rfl

theorem kept_onRecordStart (sha : Bytes → Sha256Digest) (h : r.InPhase sent taken)
    (hphase : r.phase = .recordStart) (met : ReceiverMet) :
    (r.onRecordStart sha met).Kept sent taken none := by
  simp only [InPhase, hphase] at h
  unfold onRecordStart
  split
  · exact kept_settle_silent h.1 h.2.1 rfl
  · exact kept_silent h

theorem kept_onPrepare (h : r.InPhase sent taken) (hphase : r.phase = .prepare)
    (met : ReceiverMet) : (r.onPrepare met).1.Kept sent taken (r.onPrepare met).2 := by
  simp only [InPhase, hphase] at h
  obtain ⟨hsilent, htarget, hno, hpayload⟩ := h
  unfold onPrepare
  split
  · exact kept_failed hsilent htarget _ _ _
  · dsimp only
    split
    · exact kept_failed (r := { r with audit := { r.audit with localPath := met.localPath } }) hsilent
        htarget _ _ _
    · exact kept_silent ⟨hsilent, htarget, hno, TempFile.consistent_new, hpayload⟩

theorem kept_onReady (h : r.InPhase sent taken) (hphase : r.phase = .ready) (met : ReceiverMet) :
    (r.onReady met).1.Kept sent taken (r.onReady met).2 := by
  simp only [InPhase, hphase] at h
  obtain ⟨hsilent, htarget, hrest⟩ := h
  exact kept_send hsilent htarget (m := .ready) nofun nofun met .receiving
    fun session => ⟨silent_append hsilent rfl, htarget, hrest⟩

theorem kept_onData (h : r.InPhase sent taken) (hphase : r.phase = .receiving) (block : Bytes)
    (met : ReceiverMet) : (r.onData (.data block) block met).1.Kept sent (taken ++ [.data block])
      (r.onData (.data block) block met).2 := by
  simp only [InPhase, hphase] at h
  obtain ⟨hsilent, htarget, hno, hconsistent, hpayload⟩ := h
  unfold onData
  split
  case h_1 outcome hreceived =>
    have houtcome : outcome = protocolViolation := by
      unfold recordReceived at hreceived
      split at hreceived <;> cases hreceived
      rfl
    rw [houtcome]
    exact kept_settle_silent hsilent htarget rfl
  case h_2 session _ =>
    dsimp only
    split
    · exact kept_failed (r := { r with session := session }) hsilent htarget _ _ _
    · refine kept_silent ?_
      unfold InPhase
      dsimp only
      rw [hphase]
      refine ⟨hsilent, htarget, noFinish_append hno (noFinish_singleton rfl),
        hconsistent.writeBlock block, ?_⟩
      rw [payload_append, hpayload]
      simp [payload, TempFile.writeBlock]

theorem kept_onReceived (h : r.InPhase sent taken) (hphase : r.phase = .receiving)
    (m : FileTransferMessage) (met : ReceiverMet) :
    (r.onReceived m met).1.Kept sent (taken ++ [m]) (r.onReceived m met).2 := by
  have h' := h
  simp only [InPhase, hphase] at h'
  obtain ⟨hsilent, htarget, hno, hconsistent, hpayload⟩ := h'
  unfold onReceived
  split
  case h_1 block => exact kept_onData h hphase block met
  case h_2 size digest =>
    exact kept_accept hsilent htarget _ fun session =>
      ⟨hsilent, htarget, hconsistent, taken, size, digest, rfl, hno, hpayload⟩
  case h_3 =>
    exact kept_settle hsilent htarget rfl (by nofun)
      (outputOf_bestEffortSend _ (ok_error _) _)
  case h_4 code =>
    exact kept_accept hsilent htarget _ fun session =>
      .inl ⟨htarget, hsilent.not_committed, rfl⟩
  case h_5 => exact kept_settle_silent hsilent htarget rfl

theorem kept_onSealing (sha : Bytes → Sha256Digest) (h : r.InPhase sent taken) {size : UInt64}
    {digest : Sha256Digest} (hphase : r.phase = .sealing size digest) (met : ReceiverMet) :
    (r.onSealing sha size digest met).1.Kept sent taken (r.onSealing sha size digest met).2 := by
  simp only [InPhase, hphase] at h
  obtain ⟨hsilent, htarget, hconsistent, hfinished⟩ := h
  unfold onSealing
  split
  · exact kept_failed hsilent htarget _ _ _
  · split
    · exact kept_failed hsilent htarget _ _ _
    · split
      · exact kept_failed hsilent htarget _ _ _
      · exact kept_silent ⟨hsilent, rfl, hconsistent, hfinished, hsilent.noError⟩

theorem kept_onAcknowledge (h : r.InPhase sent taken) (hphase : r.phase = .acknowledge)
    (met : ReceiverMet) : (r.onAcknowledge met).1.Kept sent taken (r.onAcknowledge met).2 := by
  simp only [InPhase, hphase] at h
  obtain ⟨-, hcommitted⟩ := h
  have hspec := writeFrameBounded_spec r.session (m := .committed) nofun met.write
  unfold onAcknowledge Receiver.send
  rcases hw : writeFrameBounded r.session .committed met.write with ⟨session, output, result⟩
  rw [hw] at hspec
  -- whatever the write did, nothing but `Committed` was told
  have hnoError : ∀ m ∈ sent ++ framesOf output, isError m = false := by
    intro m hm
    rcases List.mem_append.1 hm with hm | hm
    · exact hcommitted.noError m hm
    · rcases hspec.wrote.frames with hframes | hframes <;> rw [hframes] at hm
      · exact absurd hm List.not_mem_nil
      · rw [List.mem_singleton.1 hm]
        rfl
  obtain ⟨htarget, hconsistent, hfinished, -⟩ := hcommitted
  cases result with
  | error e =>
    exact ⟨hspec.wrote.settles,
      .inr ⟨⟨htarget, hconsistent, hfinished, hnoError⟩, .inr (.inl rfl)⟩⟩
  | ok u =>
    exact ⟨hspec.wrote.settles, .inr ⟨⟨htarget, hconsistent, hfinished, hnoError⟩, .inl rfl⟩⟩

theorem hasOutcome_apply {outcome : TransferOutcome} (failed : Bool)
    (h : r.HasOutcome sent taken outcome) :
    r.HasOutcome sent taken (applyTransferAuditResult outcome failed) := by
  unfold applyTransferAuditResult
  split
  case h_1 bytes =>
    rcases h with ⟨-, -, hne⟩ | ⟨hcommitted, heq | heq | heq⟩
    · cases hne
    · cases heq
      exact .inr ⟨hcommitted, .inr (.inr rfl)⟩
    · cases heq
    · cases heq
  case h_2 => exact h

/-- Recording the end changes neither the target nor the private file. -/
theorem HasOutcome.onSettled (sha : Bytes → Sha256Digest) {outcome outcome' : TransferOutcome}
    (met : ReceiverMet) (h : r.HasOutcome sent taken outcome') :
    (r.onSettled sha outcome met).HasOutcome sent taken outcome' := by
  rcases h with hnone | ⟨⟨htarget, hconsistent, hfinished, hnoError⟩, houtcome⟩
  · exact .inl hnone
  · exact .inr ⟨⟨htarget, hconsistent, hfinished, hnoError⟩, houtcome⟩

/-- A step of the receiver takes at most one message and keeps what its phase says. -/
theorem InPhase.step (sha : Bytes → Sha256Digest) (h : r.InPhase sent taken) {met : ReceiverMet}
    {inbox left : Link} {r' : Receiver} {output : Output}
    (hstep : r.step sha met inbox = some (r', output, left)) :
    ∃ new, Took inbox new left ∧ ProperOutput output r.phase.isRunning r'.phase.isRunning ∧
      r'.InPhase (sent ++ framesOf output) (taken ++ new) := by
  have hquiet (hrunning : r.phase.isRunning = true) {r'' : Receiver} {output' : Output}
      (hkept : r''.Kept sent taken output')
      (heq : some (r'', output', inbox) = some (r', output, left)) :
      ∃ new, Took inbox new left ∧ ProperOutput output r.phase.isRunning r'.phase.isRunning ∧
        r'.InPhase (sent ++ framesOf output) (taken ++ new) := by
    cases heq
    refine ⟨[], .nothing inbox, ?_, ?_⟩
    · rw [hrunning]
      exact hkept.proper
    · rw [List.append_nil]
      exact hkept.inPhase
  have hread (hrunning : r.phase.isRunning = true) {r'' : Receiver} {output' : Output} {left' : Link}
      {m : FileTransferMessage} (htook : Took inbox [m] left')
      (hkept : r''.Kept sent (taken ++ [m]) output')
      (heq : (r'', output', left') = (r', output, left)) :
      ∃ new, Took inbox new left ∧ ProperOutput output r.phase.isRunning r'.phase.isRunning ∧
        r'.InPhase (sent ++ framesOf output) (taken ++ new) := by
    cases heq
    refine ⟨[m], htook, ?_, hkept.inPhase⟩
    rw [hrunning]
    exact hkept.proper
  unfold Receiver.step at hstep
  dsimp only at hstep
  split at hstep
  case h_1 hphase => exact hquiet (by rw [hphase]; rfl) (kept_onStart h hphase met) hstep
  case h_2 hphase =>
    have hin := h
    simp only [InPhase, hphase] at hin
    split_ifs at hstep
    · exact hquiet (by rw [hphase]; rfl)
        (kept_settle hin.1 hin.2.1 rfl (by nofun) (outputOf_bestEffortSend _ ok_cancel _)) hstep
    · obtain ⟨result, hlink, heq⟩ := Option.map_eq_some_iff.1 hstep
      cases result with
      | error e =>
        exact hquiet (by rw [hphase]; rfl)
          (kept_settle_silent hin.1 hin.2.1 (commits_readFailureOutcome e)) (congrArg some heq)
      | ok got =>
        exact hread (by rw [hphase]; rfl) (took_of_readLink hlink) (kept_onOffer h hphase got.1) heq
  case h_3 hphase =>
    have hin := h
    simp only [InPhase, hphase] at hin
    split_ifs at hstep
    · exact hquiet (by rw [hphase]; rfl) (kept_settle_silent hin.1 hin.2.1 rfl) hstep
    · obtain ⟨result, hlink, heq⟩ := Option.map_eq_some_iff.1 hstep
      cases result with
      | error e =>
        exact hquiet (by rw [hphase]; rfl)
          (kept_settle_silent hin.1 hin.2.1 (commits_readFailureOutcome e)) (congrArg some heq)
      | ok got =>
        exact hread (by rw [hphase]; rfl) (took_of_readLink hlink) (kept_onOpen h hphase got.1) heq
  case h_4 hphase => exact hquiet (by rw [hphase]; rfl) (kept_onRecordStart sha h hphase met) hstep
  case h_5 hphase => exact hquiet (by rw [hphase]; rfl) (kept_onPrepare h hphase met) hstep
  case h_6 hphase => exact hquiet (by rw [hphase]; rfl) (kept_onReady h hphase met) hstep
  case h_7 hphase =>
    have hin := h
    simp only [InPhase, hphase] at hin
    split_ifs at hstep
    · refine hquiet (by rw [hphase]; rfl) ?_ hstep
      cases r.direction with
      | upload =>
        exact kept_settle hin.1 hin.2.1 rfl (by nofun) (outputOf_bestEffortSend _ (ok_error _) _)
      | download =>
        exact kept_settle hin.1 hin.2.1 rfl (by nofun) (outputOf_bestEffortSend _ ok_cancel _)
    · obtain ⟨result, hlink, heq⟩ := Option.map_eq_some_iff.1 hstep
      cases result with
      | error e =>
        exact hquiet (by rw [hphase]; rfl)
          (kept_settle_silent hin.1 hin.2.1 (commits_readFailureOutcome e)) (congrArg some heq)
      | ok got =>
        exact hread (by rw [hphase]; rfl) (took_of_readLink hlink)
          (kept_onReceived h hphase got.1 met) heq
  case h_8 size digest hphase =>
    exact hquiet (by rw [hphase]; rfl) (kept_onSealing sha h hphase met) hstep
  case h_9 hphase => exact hquiet (by rw [hphase]; rfl) (kept_onAcknowledge h hphase met) hstep
  case h_10 outcome hphase =>
    have hin := h
    simp only [InPhase, hphase] at hin
    cases hstep
    refine ⟨[], .nothing _, .silent nofun, ?_⟩
    rw [framesOf, List.append_nil, List.append_nil]
    exact (hasOutcome_apply _ hin).onSettled sha met
  case h_11 => cases hstep

end Receiver

end Yonder.Transfer
