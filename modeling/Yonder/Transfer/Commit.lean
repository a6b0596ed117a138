import Yonder.Transfer.ReceiverLaw
import Yonder.Transfer.SenderLaw

/-!
# The commit law

A transfer between two endpoints over a substream that may be cut anywhere: a sender that reports the
commit can rely on the target being there with exactly the bytes it read, a sender that reports a
failure or a cancellation can rely on there being no target, and a receiver reports what it did
(`run_commitLaw`). The argument is about messages: the receiver commits only after it has read
`Finish`, which is the last message of a sender that wrote it, and after a commit it writes nothing
but `Committed`.
-/

namespace Yonder.Transfer

open Lib Wire

def SenderPhase.outcome : SenderPhase → Option TransferOutcome
  | .ended outcome => some outcome
  | _ => none

def ReceiverPhase.outcome : ReceiverPhase → Option TransferOutcome
  | .ended outcome => some outcome
  | _ => none

namespace Exchange

/-- What the outcomes of the two sides say about the target. -/
structure CommitLaw (σ : Exchange) : Prop where
  /-- A sender that reports the commit: the target has exactly the bytes it read. -/
  senderCommitted : ∀ n, σ.sender.phase.outcome = some (.committed n) →
    σ.receiver.target = some σ.sender.source.content ∧ σ.sender.source.content.length = n
  /-- A sender that reports a failure or a cancellation: there is no target. -/
  senderFailed : (∃ code, σ.sender.phase.outcome = some (.failed code)) ∨
    σ.sender.phase.outcome = some .cancelled → σ.receiver.target = none
  /-- A receiver that reports a failure or a cancellation: there is no target. -/
  receiverFailed : (∃ code, σ.receiver.phase.outcome = some (.failed code)) ∨
    σ.receiver.phase.outcome = some .cancelled → σ.receiver.target = none
  /-- A receiver that reports the commit: the target has exactly the bytes it hashed. -/
  receiverCommitted : ∀ n, σ.receiver.phase.outcome = some (.committed n) ∨
    σ.receiver.phase.outcome = some (.committedUnconfirmed n) →
      σ.receiver.target = some σ.receiver.temp.hashed ∧ σ.receiver.temp.hashed.length = n

/-- The messages written and read in the two directions, and what the two sides are at. -/
def Inv (σ : Exchange) : Prop :=
  ∃ down downTaken up upTaken : List FileTransferMessage,
    framing.Carries down downTaken σ.toReceiver.bytes
      (!σ.toReceiver.closed && σ.sender.phase.isRunning) ∧
    framing.Carries up upTaken σ.toSender.bytes
      (!σ.toSender.closed && σ.receiver.phase.isRunning) ∧
    σ.sender.Inv down upTaken ∧ σ.receiver.InPhase up downTaken

theorem inv_start (observed : Bool) (request : TransferRequest) : (start observed request).Inv := by
  have hnil : NoFinish [] := fun _ hm => absurd hm List.not_mem_nil
  have hsilent : Silent [] := fun _ hm => absurd hm List.not_mem_nil
  cases request with
  | upload destination fileName size localPath =>
    exact ⟨[], [], [], [], .nil, .nil, ⟨⟨rfl, rfl⟩, hnil, rfl, rfl⟩, hsilent, rfl, hnil, rfl⟩
  | download remoteSource =>
    exact ⟨[], [], [], [], .nil, .nil, ⟨⟨rfl, rfl⟩, hnil, rfl, rfl⟩, hsilent, rfl, hnil, rfl⟩

theorem Inv.step (sha : Bytes → Sha256Digest) {σ τ : Exchange} {a : ExchangeAction} (h : σ.Inv)
    (hstep : σ.step sha a = some τ) : τ.Inv := by
  obtain ⟨down, downTaken, up, upTaken, hdown, hup, hsender, hreceiver⟩ := h
  cases a with
  | sender met =>
    obtain ⟨⟨sender, output, inbox⟩, hs, rfl⟩ := Option.map_eq_some_iff.1 hstep
    obtain ⟨new, htook, hproper, hinv⟩ := hsender.step sha hs
    exact ⟨_, downTaken, up, _, carries_write hdown hproper _, carries_read hup htook, hinv,
      hreceiver⟩
  | receiver met =>
    obtain ⟨⟨receiver, output, inbox⟩, hr, rfl⟩ := Option.map_eq_some_iff.1 hstep
    obtain ⟨new, htook, hproper, hinv⟩ := hreceiver.step sha hr
    exact ⟨down, _, _, upTaken, carries_read hdown htook, carries_write hup hproper _, hsender,
      hinv⟩
  | cut toReceiver toSender =>
    cases hstep
    exact ⟨down, downTaken, up, upTaken, hdown.cut toReceiver, hup.cut toSender, hsender,
      hreceiver⟩

/-- A target is there only with the messages that say so. -/
theorem committed_of_target {r : Receiver} {sent taken : List FileTransferMessage}
    (h : r.InPhase sent taken) (htarget : r.target ≠ none) : r.Committed sent taken := by
  unfold Receiver.InPhase at h
  split at h
  case h_1 | h_2 | h_3 => exact absurd h.2.1 htarget
  case h_4 => exact h.2
  case h_5 | h_6 =>
    rcases h with ⟨hnone, -⟩ | ⟨hcommitted, -⟩
    · exact absurd hnone htarget
    · exact hcommitted
  case h_7 => exact absurd h.2.1 htarget

/-- `Committed` is told only when there is a target. -/
theorem committed_of_mem {r : Receiver} {sent taken : List FileTransferMessage}
    (h : r.InPhase sent taken) (hmem : .committed ∈ sent) : r.Committed sent taken := by
  unfold Receiver.InPhase at h
  split at h
  case h_1 | h_2 | h_3 | h_4 | h_7 => exact absurd hmem h.1.not_committed
  case h_5 | h_6 =>
    rcases h with ⟨-, hnot, -⟩ | ⟨hcommitted, -⟩
    · exact absurd hmem hnot
    · exact hcommitted

theorem hasOutcome_of_outcome {r : Receiver} {sent taken : List FileTransferMessage}
    {outcome : TransferOutcome} (h : r.InPhase sent taken)
    (houtcome : r.phase.outcome = some outcome) : r.HasOutcome sent taken outcome := by
  unfold Receiver.InPhase at h
  cases hphase : r.phase with
  | ended o =>
    rw [hphase] at h houtcome
    cases houtcome
    exact h
  | _ => rw [hphase] at houtcome; cases houtcome

theorem senderOutcome_of_outcome {s : Sender} {sent taken : List FileTransferMessage}
    {outcome : TransferOutcome} (h : s.Inv sent taken) (houtcome : s.phase.outcome = some outcome) :
    SenderOutcome s.source.content sent taken outcome := by
  have hin := h.phase
  unfold Sender.InPhase at hin
  cases hphase : s.phase with
  | ended o =>
    rw [hphase] at hin houtcome
    cases houtcome
    exact hin
  | _ => rw [hphase] at houtcome; cases houtcome

theorem Inv.commitLaw {σ : Exchange} (h : σ.Inv) : σ.CommitLaw := by
  obtain ⟨down, downTaken, up, upTaken, hdown, hup, hsender, hreceiver⟩ := h
  -- with `Finish` unread there is no commit, and after one no error is told
  have hnoTarget (hsaid : NoFinish down ∨ ∃ m ∈ upTaken, isError m = true) :
      σ.receiver.target = none := by
    by_contra htarget
    have hcommitted := committed_of_target hreceiver htarget
    rcases hsaid with hno | ⟨m, hm, herror⟩
    · exact hno.not_finished hdown.takenFirst hcommitted.finished
    · exact Bool.false_ne_true
        ((hcommitted.noError m (hup.takenFirst.subset hm)).symm.trans herror)
  refine ⟨fun n hn => ?_, fun hfailed => ?_, fun hfailed => ?_, fun n hn => ?_⟩
  · obtain ⟨hfinished, hmem, rfl⟩ := senderOutcome_of_outcome hsender hn
    have hcommitted := committed_of_mem hreceiver (hup.takenFirst.subset hmem)
    refine ⟨?_, rfl⟩
    rw [hcommitted.target, hcommitted.finished.content_eq hfinished hdown.takenFirst]
  · rcases hfailed with ⟨code, hn⟩ | hn
    · exact hnoTarget (senderOutcome_of_outcome hsender hn)
    · exact hnoTarget (senderOutcome_of_outcome hsender hn)
  · have huncommitted (outcome : TransferOutcome) (hn : σ.receiver.phase.outcome = some outcome)
        (hne : outcome = .cancelled ∨ ∃ code, outcome = .failed code) :
        σ.receiver.target = none := by
      rcases hasOutcome_of_outcome hreceiver hn with ⟨hnone, -⟩ | ⟨-, heq | heq | heq⟩
      · exact hnone
      all_goals
        rw [heq] at hne
        rcases hne with hne | ⟨code, hne⟩ <;> cases hne
    rcases hfailed with ⟨code, hn⟩ | hn
    · exact huncommitted _ hn (.inr ⟨code, rfl⟩)
    · exact huncommitted _ hn (.inl rfl)
  · have hreport (outcome : TransferOutcome) (hn : σ.receiver.phase.outcome = some outcome)
        (hcommits : outcome = .committed n ∨ outcome = .committedUnconfirmed n) :
        σ.receiver.target = some σ.receiver.temp.hashed ∧ σ.receiver.temp.hashed.length = n := by
      rcases hasOutcome_of_outcome hreceiver hn with ⟨-, -, hne⟩ | ⟨hcommitted, heq⟩
      · rcases hcommits with rfl | rfl <;> cases hne
      · have hwritten : σ.receiver.temp.written = n := by
          rcases hcommits with rfl | rfl <;> rcases heq with heq | heq | heq <;> cases heq <;> rfl
        rw [hcommitted.consistent.hashed, ← hcommitted.consistent.written]
        exact ⟨hcommitted.target, hwritten⟩
    rcases hn with hn | hn
    · exact hreport _ hn (.inl rfl)
    · exact hreport _ hn (.inr rfl)

/-- In every run of a transfer, however the sides interleave, whatever fails or is cancelled and
wherever the substream is cut, the outcomes tell the truth about the target. -/
theorem run_commitLaw (sha : Bytes → Sha256Digest) (observed : Bool) (request : TransferRequest)
    (actions : List ExchangeAction) (τ : Exchange)
    (hrun : Machine.run (step sha) (start observed request) actions = some τ) : τ.CommitLaw :=
  (Machine.run_invariant (fun _ _ _ h => h.step sha) (inv_start observed request) hrun).commitLaw

/-- A digest for runs on fixed inputs. -/
def lastBytes (bytes : Bytes) : Sha256Digest := ⟨beBytes 32 (beNat bytes), length_beBytes 32 _⟩

/-- An upload of two bytes. -/
def uploadOfTwo : List ExchangeAction :=
  [.sender {}, .receiver {}, .sender {}, .receiver {}, .receiver {}, .receiver {}, .sender {},
    .sender { file := { data := .ok [7, 8] } }, .receiver {}, .sender {}, .sender {}, .receiver {},
    .receiver {}, .receiver {}, .sender {}, .sender {}]

/-- The sender reports the commit of the two bytes, and they are there. -/
theorem run_commitLaw_upload :
    ∃ τ, Machine.run (step lastBytes) (start true (.upload "" "f" 2 none)) uploadOfTwo = some τ ∧
      τ.sender.phase.outcome = some (.committed 2) ∧ τ.receiver.target = some [7, 8] ∧
      τ.CommitLaw := by
  have hrun : (Machine.run (step lastBytes) (start true (.upload "" "f" 2 none)) uploadOfTwo).map
      (fun τ => (τ.sender.phase.outcome, τ.receiver.target)) =
        some (some (.committed 2), some [7, 8]) := by
    decide +kernel
  obtain ⟨τ, hτ, hout⟩ := Option.map_eq_some_iff.1 hrun
  obtain ⟨houtcome, htarget⟩ := Prod.mk.inj hout
  exact ⟨τ, hτ, houtcome, htarget, run_commitLaw _ _ _ _ τ hτ⟩

end Exchange

end Yonder.Transfer
