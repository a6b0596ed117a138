import Yonder.Transfer.Messages

/-!
# What the sender's phases say about its messages

Before `Finish` the blocks written are the bytes read, `Finish` is the last message, and an outcome
after it comes from the answer that was read. `Inv.step`: every step of the sender keeps this.
-/

namespace Yonder.Transfer

open Lib Wire

def SenderPhase.isRunning : SenderPhase → Bool
  | .settled _ => false
  | .ended _ => false
  | _ => true

def senderSide : TransferDirection → TransferSide
  | .upload => .controller
  | .download => .host

/-- What an outcome of the sender says about the messages. -/
def SenderOutcome (content : Bytes) (sent taken : List FileTransferMessage) :
    TransferOutcome → Prop
  | .committed n => Finished sent content ∧ .committed ∈ taken ∧ n = content.length
  | .failed _ | .cancelled => NoFinish sent ∨ ∃ m ∈ taken, isError m = true
  | _ => True

namespace Sender

/-- What the messages of the sender are in each phase. -/
def InPhase (s : Sender) (sent taken : List FileTransferMessage) : Prop :=
  match s.phase with
  | .streaming | .finishing => NoFinish sent ∧ payload sent = s.source.content
  | .awaitCommitted =>
    Finished sent s.source.content ∧ s.session.state = .awaitingCommitted
  | .settled outcome | .ended outcome => SenderOutcome s.source.content sent taken outcome
  | _ => NoFinish sent ∧ payload sent = [] ∧ s.source.content = []

/-- The session is that of the sender. -/
def Sided (s : Sender) : Prop :=
  s.session.direction = s.direction ∧ s.session.side = senderSide s.direction

structure Inv (s : Sender) (sent taken : List FileTransferMessage) : Prop where
  sided : s.Sided
  phase : s.InPhase sent taken

/-- What a step of a running sender to `s` keeps, with what it wrote. -/
structure Kept (s : Sender) (sent taken : List FileTransferMessage) (output : Output) : Prop where
  proper : ProperOutput output true s.phase.isRunning
  inv : s.Inv (sent ++ framesOf output) taken

variable {s : Sender} {sent taken : List FileTransferMessage}

theorem senderOutcome_of_noFinish {content : Bytes} {outcome : TransferOutcome}
    (h : NoFinish sent) (hne : ∀ n, outcome ≠ .committed n) :
    SenderOutcome content sent taken outcome := by
  cases outcome with
  | committed n => exact absurd rfl (hne n)
  | failed _ | cancelled => exact .inl h
  | _ => trivial

/-- Before `Finish` a sender may settle with anything but a commit, telling anything but `Finish`. -/
theorem kept_settle (hsided : s.Sided) (hno : NoFinish sent)
    {outcome : TransferOutcome} (hne : ∀ n, outcome ≠ .committed n) {m : FileTransferMessage}
    (hm : isFinish m = false) {output : Output} (hout : OutputOf m output) :
    (s.settle outcome).Kept sent taken output where
  proper := hout.settles
  inv := by
    refine ⟨hsided, senderOutcome_of_noFinish (noFinish_append hno ?_) hne⟩
    rcases hout.frames with hframes | hframes <;> rw [hframes]
    · exact fun _ hm' => absurd hm' List.not_mem_nil
    · exact noFinish_singleton hm

theorem kept_settle_silent (hsided : s.Sided) (hno : NoFinish sent)
    {outcome : TransferOutcome}
    (hne : ∀ n, outcome ≠ .committed n) : (s.settle outcome).Kept sent taken none :=
  kept_settle (m := .cancel) hsided hno hne rfl nofun

/-- The sender goes on without writing. -/
theorem kept_silent (hsided : s.Sided)
    (hphase : s.InPhase sent taken) : s.Kept sent taken none where
  proper := .silent fun _ => rfl
  inv := by
    rw [framesOf, List.append_nil]
    exact ⟨hsided, hphase⟩

/-- The sender goes on after a whole frame. -/
theorem kept_whole (hsided : s.Sided)
    {w : Written} (hok : framing.ok w.message) (hwhole : w.Whole)
    (hphase : s.InPhase (sent ++ [w.message]) taken) : s.Kept sent taken (some w) where
  proper := by
    refine ⟨fun w' hw' => ?_, fun _ _ => rfl, fun w' hw' hnot => ?_, fun _ => rfl⟩
    · cases hw'
      exact hok
    · cases hw'
      exact absurd hwhole hnot
  inv := by
    have hframes : framesOf (some w) = [w.message] := if_pos hwhole
    rw [hframes]
    exact ⟨hsided, hphase⟩

theorem sendFailure_ne (e : WriteFrameError) (n : Nat) : sendFailure e ≠ .committed n := by
  cases e <;> exact nofun

theorem readFailureOutcome_ne (e : FrameReadError) (n : Nat) :
    readFailureOutcome e ≠ .committed n := by
  cases e <;> exact nofun

theorem Sided.withSession (h : s.Sided) {session : WireSession}
    (hsame : session.direction = s.session.direction ∧ session.side = s.session.side) :
    ({ s with session := session } : Sender).Sided :=
  ⟨hsame.1.trans h.1, hsame.2.trans h.2⟩

/-- A frame other than `Finish` is written on the way to the next phase. -/
theorem kept_send (hsided : s.Sided) (hno : NoFinish sent)
    {m : FileTransferMessage} (hframed : Framed m) (hm : isFinish m = false) (met : SenderMet)
    (next : SenderPhase) (hphase : ∀ session,
      ({ s with session := session, phase := next } : Sender).InPhase (sent ++ [m]) taken) :
    (s.send m met next sendFailure).1.Kept sent taken (s.send m met next sendFailure).2 := by
  have hspec := writeFrameBounded_spec s.session hframed met.write
  unfold Sender.send
  rcases hw : writeFrameBounded s.session m met.write with ⟨session, output, result⟩
  rw [hw] at hspec
  cases result with
  | error e =>
    exact kept_settle (hsided.withSession hspec.same) hno (sendFailure_ne e) hm hspec.wrote
  | ok u =>
    obtain ⟨-, w, rfl, rfl, hwhole⟩ := hspec.done rfl
    exact kept_whole (s := { s with session := session, phase := next })
      (hsided.withSession hspec.same) (hspec.wrote w rfl).2 hwhole (hphase session)

/-- A message is read before `Finish` was written. -/
theorem kept_accept (hsided : s.Sided) (hno : NoFinish sent)
    {m : FileTransferMessage} (next : SenderPhase) (hphase : ∀ session,
      ({ s with session := session, phase := next } : Sender).InPhase sent taken) :
    (s.accept m next).Kept sent taken none := by
  unfold Sender.accept recordReceived
  cases hreceive : s.session.receive m with
  | error e => exact kept_settle_silent hsided hno (by nofun)
  | ok session =>
    exact kept_silent (s := { s with session := session, phase := next })
      (hsided.withSession (receive_same hreceive)) (hphase session)

/-! ### The steps -/

theorem kept_onStart (h : s.Inv sent taken) (hphase : s.phase = .start) (met : SenderMet) :
    (s.onStart met).1.Kept sent taken (s.onStart met).2 := by
  have hin := h.phase
  simp only [InPhase, hphase] at hin
  obtain ⟨hno, hpayload, hcontent⟩ := hin
  unfold onStart
  split_ifs
  · exact kept_settle_silent h.sided hno (by nofun)
  · refine kept_send h.sided hno (by nofun) rfl met _ fun session => ⟨?_, ?_, hcontent⟩
    · exact noFinish_append hno (noFinish_singleton rfl)
    · rw [payload_append, hpayload]
      rfl

theorem kept_onOpen (h : s.Inv sent taken) (hphase : s.phase = .awaitOpen)
    (m : FileTransferMessage) : (s.onOpen m).Kept sent (taken ++ [m]) none := by
  have hin := h.phase
  simp only [InPhase, hphase] at hin
  unfold onOpen
  split
  case h_1 source =>
    exact kept_accept (s := { s with remotePath := source }) h.sided hin.1 .openSource
      fun _ => hin
  case h_2 => exact kept_settle_silent h.sided hin.1 (by nofun)

theorem kept_failLocal (hsided : s.Sided) (hno : NoFinish sent)
    (error : FileSemanticsError)
    (fallback : FileTransferErrorCode) (accepted : Nat) :
    (s.settle (failLocal error fallback accepted).2).Kept sent taken
      (failLocal error fallback accepted).1 := by
  obtain ⟨code, hout, houtcome⟩ := outputOf_failLocal error fallback accepted
  rw [houtcome]
  exact kept_settle hsided hno (by nofun) rfl hout

theorem kept_onOpenSource (h : s.Inv sent taken) (hphase : s.phase = .openSource) (met : SenderMet) :
    (s.onOpenSource met).1.Kept sent taken (s.onOpenSource met).2 := by
  have hin := h.phase
  simp only [InPhase, hphase] at hin
  obtain ⟨hno, hpayload, -⟩ := hin
  unfold onOpenSource
  split
  · exact kept_failLocal h.sided hno _ _ _
  · split
    · exact kept_failLocal h.sided hno _ _ _
    · dsimp only
      split
      · exact kept_settle_silent (s := { s with audit := { s.audit with localPath := met.localPath } })
          h.sided hno (by nofun)
      · exact kept_silent h.sided ⟨hno, hpayload, rfl⟩

theorem kept_onRecordStart (sha : Bytes → Sha256Digest) (h : s.Inv sent taken)
    (hphase : s.phase = .recordStart) (met : SenderMet) :
    (s.onRecordStart sha met).Kept sent taken none := by
  have hin := h.phase
  simp only [InPhase, hphase] at hin
  unfold onRecordStart
  split
  · exact kept_settle_silent h.sided hin.1 (by nofun)
  · refine kept_silent h.sided ?_
    unfold InPhase
    dsimp only
    cases s.direction <;> exact hin

theorem kept_onOffer (h : s.Inv sent taken) (hphase : s.phase = .offer) (met : SenderMet) :
    (s.onOffer met).1.Kept sent taken (s.onOffer met).2 := by
  have hin := h.phase
  simp only [InPhase, hphase] at hin
  obtain ⟨hno, hpayload, hcontent⟩ := hin
  refine kept_send h.sided hno (by nofun) rfl met _ fun session => ⟨?_, ?_, hcontent⟩
  · exact noFinish_append hno (noFinish_singleton rfl)
  · rw [payload_append, hpayload]
    rfl

theorem kept_onCancelReady (h : s.Inv sent taken) (hphase : s.phase = .awaitReady)
    (met : SenderMet) : (s.onCancelReady met).1.Kept sent taken (s.onCancelReady met).2 := by
  have hin := h.phase
  simp only [InPhase, hphase] at hin
  unfold onCancelReady
  split
  · exact kept_settle h.sided hin.1 (by nofun) rfl (outputOf_bestEffortSend _ ok_cancel _)
  · exact kept_settle_silent h.sided hin.1 (by nofun)

theorem kept_onReady (h : s.Inv sent taken) (hphase : s.phase = .awaitReady)
    (m : FileTransferMessage) (met : SenderMet) :
    (s.onReady m met).1.Kept sent (taken ++ [m]) (s.onReady m met).2 := by
  have hin := h.phase
  simp only [InPhase, hphase] at hin
  obtain ⟨hno, hpayload, hcontent⟩ := hin
  unfold onReady
  split
  · exact kept_accept h.sided hno _ fun _ => ⟨hno, hpayload.trans hcontent.symm⟩
  · exact kept_accept h.sided hno _ fun _ => .inl hno
  · exact kept_settle h.sided hno (by nofun) rfl (outputOf_bestEffortSend _ (ok_error _) _)
  · exact kept_settle_silent h.sided hno (by nofun)

theorem kept_sendBlock (hsided : s.Sided) (hno : NoFinish sent) {before : Bytes}
    (hpayload : payload sent = before) (hphase : s.phase = .streaming) {block : Bytes}
    (hcontent : s.source.content = before ++ block) (hne : block ≠ [])
    (hlen : block.length ≤ maxDataLen) (met : SenderMet) :
    (s.sendBlock block met).1.Kept sent taken (s.sendBlock block met).2 := by
  have hframed : Framed (.data block) := by
    intro bytes heq
    cases heq
    exact ⟨List.length_pos_of_ne_nil hne, hlen⟩
  have hspec := writeFrameBounded_spec s.session hframed met.write
  unfold sendBlock
  rcases hw : writeFrameBounded s.session (.data block) met.write with ⟨session, output, result⟩
  rw [hw] at hspec
  cases result with
  | error e =>
    dsimp only
    split_ifs
    · exact kept_settle hsided hno (by nofun) rfl (outputOf_bestEffortSend _ (ok_error _) _)
    · exact kept_settle hsided hno (sendFailure_ne e) rfl hspec.wrote
  | ok u =>
    obtain ⟨-, w, rfl, hmessage, hwhole⟩ := hspec.done rfl
    refine kept_whole (s := { s with session := session }) (hsided.withSession hspec.same)
      (hmessage ▸ (hspec.wrote w rfl).2) hwhole ?_
    unfold InPhase
    dsimp only
    rw [hphase, hmessage]
    refine ⟨noFinish_append hno (noFinish_singleton rfl), ?_⟩
    rw [payload_append, hpayload, hcontent]
    simp [payload]

theorem kept_onStreaming (h : s.Inv sent taken) (hphase : s.phase = .streaming) (met : SenderMet) :
    (s.onStreaming met).1.Kept sent taken (s.onStreaming met).2 := by
  have hin := h.phase
  simp only [InPhase, hphase] at hin
  unfold onStreaming
  split_ifs
  · cases hdirection : s.direction with
    | upload =>
      exact kept_settle h.sided hin.1 (by nofun) rfl (outputOf_bestEffortSend _ ok_cancel _)
    | download =>
      exact kept_settle h.sided hin.1 (by nofun) rfl (outputOf_bestEffortSend _ (ok_error _) _)
  · split
    case h_1 => exact kept_failLocal h.sided hin.1 _ _ _
    case h_2 source block hread =>
      obtain ⟨hcontent, -, hlen⟩ := Source.readBlock_ok hread
      split_ifs with hblock
      · exact kept_silent h.sided hin
      · exact kept_sendBlock (s := { s with source := source }) h.sided hin.1 hin.2 hphase hcontent
          hblock hlen met

/-- Once `Finish` was recorded, the session awaits the answer. -/
theorem state_send_finish {session session' : WireSession} {size : UInt64} {digest : Sha256Digest}
    (h : session.send (.finish size digest) = .ok session') :
    session'.state = .awaitingCommitted := by
  unfold WireSession.send at h
  cases hstate : sendState session.direction session.side session.state (.finish size digest) with
  | error e => rw [hstate] at h; cases h
  | ok state =>
    rw [hstate] at h
    cases h
    unfold sendState at hstate
    split at hstate <;> cases hstate <;> rfl

theorem kept_onFinishing (sha : Bytes → Sha256Digest) (h : s.Inv sent taken)
    (hphase : s.phase = .finishing) (met : SenderMet) :
    (s.onFinishing sha met).1.Kept sent taken (s.onFinishing sha met).2 := by
  have hin := h.phase
  simp only [InPhase, hphase] at hin
  obtain ⟨hno, hpayload⟩ := hin
  unfold onFinishing
  split
  case h_1 => exact kept_failLocal h.sided hno _ _ _
  case h_2 =>
    dsimp only
    have hspec := writeFrameBounded_spec s.session
      (m := .finish (UInt64.ofNat s.source.bytesRead) (sha s.source.content)) nofun met.write
    rcases hw : writeFrameBounded s.session
      (.finish (UInt64.ofNat s.source.bytesRead) (sha s.source.content)) met.write with
      ⟨session, output, result⟩
    rw [hw] at hspec
    cases result with
    | ok u =>
      obtain ⟨hsend, w, rfl, hmessage, hwhole⟩ := hspec.done rfl
      refine kept_whole
        (s := { s with
          session := session
          audit := { s.audit with digest := some (sha s.source.content) }
          phase := .awaitCommitted })
        (h.sided.withSession hspec.same) (hmessage ▸ (hspec.wrote w rfl).2) hwhole ?_
      rw [hmessage]
      exact ⟨⟨sent, _, _, rfl, hno, hpayload⟩, state_send_finish hsend⟩
    | error e =>
      refine ⟨hspec.wrote.settles, h.sided, ?_⟩
      -- without a first byte the peer has no `Finish`; otherwise the outcome says nothing
      have hunstarted := hspec.unstarted e rfl
      show SenderOutcome _ _ _ (finishSendFailure e _)
      have hquiet (hmem : e ∈ [.protocol, .cancelled false, .timeout false, .io false]) :
          NoFinish (sent ++ framesOf output) := by
        rw [hunstarted hmem, List.append_nil]
        exact hno
      cases e with
      | protocol => exact .inl (hquiet (by simp))
      | timeout started =>
        cases started with
        | false => exact .inl (hquiet (by simp))
        | true => trivial
      | cancelled started =>
        cases started with
        | false => exact .inl (hquiet (by simp))
        | true => trivial
      | io started =>
        cases started with
        | false => exact .inl (hquiet (by simp))
        | true => trivial

/-- In the last state the session accepts both answers. -/
theorem receive_committed (hsided : s.Sided) (hstate : s.session.state = .awaitingCommitted)
    {m : FileTransferMessage} (hm : m = .committed ∨ isError m = true) :
    ∃ session, s.session.receive m = .ok session := by
  obtain ⟨hdirection, hside⟩ := hsided
  unfold WireSession.receive
  rw [hdirection, hside, hstate]
  rcases hm with rfl | hm
  · cases s.direction <;> exact ⟨_, rfl⟩
  · cases m with
    | error code => cases s.direction <;> exact ⟨_, rfl⟩
    | _ => cases hm

theorem kept_onCommitted (h : s.Inv sent taken) (hphase : s.phase = .awaitCommitted)
    (m : FileTransferMessage) : (s.onCommitted m).Kept sent (taken ++ [m]) none := by
  have hin := h.phase
  simp only [InPhase, hphase] at hin
  obtain ⟨hfinished, hstate⟩ := hin
  have hmem : m ∈ taken ++ [m] := List.mem_append_right taken (List.mem_singleton.2 rfl)
  unfold onCommitted
  dsimp only
  split
  case h_1 =>
    obtain ⟨session, hreceive⟩ := receive_committed h.sided hstate (.inl rfl)
    simp only [accept, recordReceived, hreceive]
    exact kept_silent (h.sided.withSession (receive_same hreceive)) ⟨hfinished, hmem, rfl⟩
  case h_2 code =>
    obtain ⟨session, hreceive⟩ := receive_committed (m := .error code) h.sided hstate (.inr rfl)
    simp only [accept, recordReceived, hreceive]
    exact kept_silent (h.sided.withSession (receive_same hreceive)) (.inr ⟨_, hmem, rfl⟩)
  case h_3 => exact kept_silent (s := s.settle _) h.sided trivial

theorem senderOutcome_apply {content : Bytes} {outcome : TransferOutcome} (failed : Bool)
    (h : SenderOutcome content sent taken outcome) :
    SenderOutcome content sent taken (applyTransferAuditResult outcome failed) := by
  unfold applyTransferAuditResult
  split
  · trivial
  · exact h

/-- A step of the sender takes at most one message and keeps what its phase says. -/
theorem Inv.step (sha : Bytes → Sha256Digest) (h : s.Inv sent taken) {met : SenderMet}
    {inbox left : Link} {s' : Sender} {output : Output}
    (hstep : s.step sha met inbox = some (s', output, left)) :
    ∃ new, Took inbox new left ∧ ProperOutput output s.phase.isRunning s'.phase.isRunning ∧
      s'.Inv (sent ++ framesOf output) (taken ++ new) := by
  have hquiet (hrunning : s.phase.isRunning = true) {s'' : Sender} {output' : Output}
      (hkept : s''.Kept sent taken output')
      (heq : some (s'', output', inbox) = some (s', output, left)) :
      ∃ new, Took inbox new left ∧ ProperOutput output s.phase.isRunning s'.phase.isRunning ∧
        s'.Inv (sent ++ framesOf output) (taken ++ new) := by
    cases heq
    refine ⟨[], .nothing inbox, ?_, ?_⟩
    · rw [hrunning]
      exact hkept.proper
    · rw [List.append_nil]
      exact hkept.inv
  have hread (hrunning : s.phase.isRunning = true) {s'' : Sender} {output' : Output} {left' : Link}
      {m : FileTransferMessage} (htook : Took inbox [m] left')
      (hkept : s''.Kept sent (taken ++ [m]) output')
      (heq : (s'', output', left') = (s', output, left)) :
      ∃ new, Took inbox new left ∧ ProperOutput output s.phase.isRunning s'.phase.isRunning ∧
        s'.Inv (sent ++ framesOf output) (taken ++ new) := by
    cases heq
    refine ⟨[m], htook, ?_, hkept.inv⟩
    rw [hrunning]
    exact hkept.proper
  unfold Sender.step at hstep
  dsimp only at hstep
  split at hstep
  case h_1 hphase => exact hquiet (by rw [hphase]; rfl) (kept_onStart h hphase met) hstep
  case h_2 hphase =>
    have hin := h.phase
    simp only [InPhase, hphase] at hin
    split_ifs at hstep
    · exact hquiet (by rw [hphase]; rfl) (kept_settle_silent h.sided hin.1 (by nofun)) hstep
    · obtain ⟨result, hlink, heq⟩ := Option.map_eq_some_iff.1 hstep
      cases result with
      | error e =>
        exact hquiet (by rw [hphase]; rfl)
          (kept_settle_silent h.sided hin.1 (readFailureOutcome_ne e)) (congrArg some heq)
      | ok got =>
        exact hread (by rw [hphase]; rfl) (took_of_readLink hlink) (kept_onOpen h hphase got.1) heq
  case h_3 hphase => exact hquiet (by rw [hphase]; rfl) (kept_onOpenSource h hphase met) hstep
  case h_4 hphase => exact hquiet (by rw [hphase]; rfl) (kept_onRecordStart sha h hphase met) hstep
  case h_5 hphase => exact hquiet (by rw [hphase]; rfl) (kept_onOffer h hphase met) hstep
  case h_6 hphase =>
    have hin := h.phase
    simp only [InPhase, hphase] at hin
    split_ifs at hstep
    · exact hquiet (by rw [hphase]; rfl) (kept_onCancelReady h hphase met) hstep
    · obtain ⟨result, hlink, heq⟩ := Option.map_eq_some_iff.1 hstep
      cases result with
      | error e =>
        exact hquiet (by rw [hphase]; rfl)
          (kept_settle_silent h.sided hin.1 (readFailureOutcome_ne e)) (congrArg some heq)
      | ok got =>
        exact hread (by rw [hphase]; rfl) (took_of_readLink hlink) (kept_onReady h hphase got.1 met)
          heq
  case h_7 hphase => exact hquiet (by rw [hphase]; rfl) (kept_onStreaming h hphase met) hstep
  case h_8 hphase => exact hquiet (by rw [hphase]; rfl) (kept_onFinishing sha h hphase met) hstep
  case h_9 hphase =>
    split_ifs at hstep
    · exact hquiet (by rw [hphase]; rfl) (kept_silent (s := s.settle _) h.sided (by trivial)) hstep
    · obtain ⟨result, hlink, heq⟩ := Option.map_eq_some_iff.1 hstep
      cases result with
      | error e =>
        exact hquiet (by rw [hphase]; rfl) (kept_silent (s := s.settle _) h.sided (by trivial))
          (congrArg some heq)
      | ok got =>
        exact hread (by rw [hphase]; rfl) (took_of_readLink hlink) (kept_onCommitted h hphase got.1)
          heq
  case h_10 outcome hphase =>
    have hin := h.phase
    simp only [InPhase, hphase] at hin
    cases hstep
    refine ⟨[], .nothing _, .silent nofun, h.sided, ?_⟩
    rw [framesOf, List.append_nil, List.append_nil]
    exact senderOutcome_apply _ hin
  case h_11 => cases hstep

end Sender

end Yonder.Transfer
