import Yonder.Transfer.Destination
import Yonder.Transfer.Flow

/-!
# What the receiver of an upload commits

`upload_receive_tail` on a stream of data blocks and a `Finish`, where no read, write or file
operation fails: the receiver of `Transfer.Receiver`, with the destination of `resolve_destination`
and the commit of `commit_async`. No block is compared with the declared size when it arrives; the
sizes and the digest are compared once, behind the `Finish`, and the name of the final path is
checked again at the commit. `receive_tail_commits` says what is then at the target.
-/

namespace Yonder.Transfer

open Lib Wire

section Commit

variable {Path : Type} (S : StdPath Path)

/-- `validate_commit_destination`. -/
def validateCommitDestination (finalPath : Path) : Except FileSemanticsError Unit :=
  match (S.fileName finalPath).bind ofUtf8 with
  | none => .error .invalidFileName
  | some name => validateDefaultFileNameOnReceivingPlatform S name

/-- `commit_async`; paths are compared by their components, and `persisted` is what
`persist_noclobber` says. -/
def commitAsync (tempPath finalPath : Path) (persisted : Except FileSemanticsError Unit) :
    Except FileSemanticsError Unit :=
  if (S.parent tempPath).map S.components ≠ (S.parent finalPath).map S.components then
    .error .commitFailed
  else do
    validateCommitDestination S finalPath
    persisted

/-- The error of a call. -/
def errorOf {Value : Type} : Except FileSemanticsError Value → Option FileSemanticsError
  | .ok _ => none
  | .error error => some error

variable (fs : FileSystem Path) (base : Path)

/-- The destination of an upload: an empty one is none. -/
def uploadPlan (r : Receiver) : Except FileSemanticsError (DestinationPlan Path) :=
  resolveDestination S fs base (if r.remotePath = "" then none else some r.remotePath)
    (some r.fileName)

/-- What the awaits of an upload meet when nothing fails by itself: the private file is in the
directory of the plan, and the final path is still free at the commit. -/
structure Undisturbed (r : Receiver) (met : ReceiverMet) : Prop where
  cancelled : met.cancelled = false
  fault : met.fault = none
  write : met.write = .done
  resolve : met.resolve = errorOf (uploadPlan S fs base r)
  createTemp : met.createTemp = none
  writeBlock : met.writeBlock = none
  finish : met.finish = none
  commit : ∀ plan, uploadPlan S fs base r = .ok plan →
    ∃ tempPath, S.parent tempPath = some plan.tempDir ∧
      met.commit = errorOf (commitAsync S tempPath plan.finalPath (.ok ()))

end Commit

/-! ## Steps -/

/-- So many steps of a receiver. -/
def advance (sha : Bytes → Sha256Digest) (met : ReceiverMet) :
    Nat → Receiver → Link → Option (Receiver × Link)
  | 0, r, inbox => some (r, inbox)
  | n + 1, r, inbox => (r.step sha met inbox).bind fun result =>
    advance sha met n result.1 result.2.2

section Steps

variable (sha : Bytes → Sha256Digest) (met : ReceiverMet)

theorem advance_succ {n : Nat} {r r' : Receiver} {inbox inbox' : Link} {output : Output}
    (h : r.step sha met inbox = some (r', output, inbox')) :
    advance sha met (n + 1) r inbox = advance sha met n r' inbox' := by
  rw [advance, h, Option.bind_some]

theorem advance_add {m n : Nat} {r r' : Receiver} {inbox inbox' : Link}
    (h : advance sha met m r inbox = some (r', inbox')) :
    advance sha met (m + n) r inbox = advance sha met n r' inbox' := by
  induction m generalizing r inbox with
  | zero =>
    cases h
    rw [Nat.zero_add]
  | succ m ih =>
    rw [Nat.succ_add]
    obtain ⟨⟨next, output, left⟩, hstep, hrest⟩ := Option.bind_eq_some_iff.1 h
    rw [advance_succ sha met hstep]
    exact ih hrest

/-- The frames of data blocks. -/
def blockFrames (blocks : List Bytes) : Bytes := blocks.flatMap fun block => frameOf (.data block)

theorem blockFrames_cons (block : Bytes) (blocks : List Bytes) :
    blockFrames (block :: blocks) = frameOf (.data block) ++ blockFrames blocks :=
  List.flatMap_cons

/-- A receiver that takes data blocks. -/
structure Receiving (r : Receiver) : Prop where
  direction : r.direction = .upload
  phase : r.phase = .receiving
  session : r.session = ⟨.upload, .host, .transferring⟩

theorem read_frame {m : FileTransferMessage} (hm : framing.ok m) (rest : Bytes) (closed : Bool) :
    readLink true none ⟨frameOf m ++ rest, closed⟩ = some (.ok (m, ⟨rest, closed⟩)) := by
  rw [readLink, readFrame_encodeFrame hm.2 (fun _ => rfl) (encodeFrame_of_isSome hm.1)]

theorem data_ok {block : Bytes} (h : 1 ≤ block.length ∧ block.length ≤ 65536) :
    framing.ok (.data block) := by
  refine ⟨?_, ?_⟩
  · have hlt : block.length < 256 ^ 4 := by omega
    rw [encodeFrame, encodePayload, Option.bind_some, if_pos hlt]
    rfl
  · rintro bytes ⟨⟩
    exact h

theorem finish_ok (size : UInt64) (digest : Sha256Digest) : framing.ok (.finish size digest) := by
  refine ⟨?_, ?_⟩
  · have hlt : (Codec.u64.enc size ++ digest.1).length < 256 ^ 4 := by
      rw [List.length_append, digest.2, Codec.u64.enc_length]
      decide
    rw [encodeFrame, encodePayload, Option.bind_some, if_pos hlt]
    rfl
  · rintro bytes ⟨⟩

/-- A block is written to the private file, whatever the declared size. -/
theorem step_data {r : Receiver} (hr : Receiving r) (hcancelled : met.cancelled = false)
    (hfault : met.fault = none) (hwrite : met.writeBlock = none) {block : Bytes}
    (hblock : 1 ≤ block.length ∧ block.length ≤ 65536) (rest : Bytes) (closed : Bool) :
    r.step sha met ⟨frameOf (.data block) ++ rest, closed⟩ =
      some ({ r with temp := r.temp.writeBlock block }, none, ⟨rest, closed⟩) := by
  obtain ⟨direction, session, phase, remotePath, fileName, declaredSize, temp, target, audit⟩ := r
  obtain ⟨rfl, rfl, rfl⟩ := hr
  rw [Receiver.step]
  dsimp only
  rw [hcancelled, hfault, read_frame (data_ok hblock)]
  change some ((Receiver.onData _ _ _ _).1, (Receiver.onData _ _ _ _).2, _) = _
  unfold Receiver.onData
  rw [hwrite]
  rfl

/-- All blocks are written to the private file. -/
theorem advance_blocks {r : Receiver} (hr : Receiving r) (hcancelled : met.cancelled = false)
    (hfault : met.fault = none) (hwrite : met.writeBlock = none) {blocks : List Bytes}
    (hblocks : ∀ block ∈ blocks, 1 ≤ block.length ∧ block.length ≤ 65536) (rest : Bytes)
    (closed : Bool) :
    advance sha met blocks.length r ⟨blockFrames blocks ++ rest, closed⟩ =
      some ({ r with temp := blocks.foldl TempFile.writeBlock r.temp }, ⟨rest, closed⟩) := by
  induction blocks generalizing r with
  | nil => rfl
  | cons block blocks ih =>
    have hstep := step_data sha met hr hcancelled hfault hwrite
      (hblocks block List.mem_cons_self) (blockFrames blocks ++ rest) closed
    rw [blockFrames_cons, List.append_assoc, List.length_cons, advance_succ sha met hstep]
    exact ih ⟨hr.direction, hr.phase, hr.session⟩ fun b hb => hblocks b (List.mem_cons_of_mem _ hb)

theorem foldl_writeBlock (blocks : List Bytes) (t : TempFile) :
    blocks.foldl TempFile.writeBlock t =
      ⟨t.content ++ blocks.flatten, t.written + blocks.flatten.length, t.hashed ++ blocks.flatten⟩ := by
  induction blocks generalizing t with
  | nil =>
    rw [List.foldl_nil, List.flatten_nil, List.append_nil, List.append_nil]
    rfl
  | cons block blocks ih =>
    rw [List.foldl_cons, ih, List.flatten_cons, List.length_append]
    simp only [TempFile.writeBlock, List.append_assoc, Nat.add_assoc]

/-- A receiver with an outcome records it and has ended, with the target as it was. -/
theorem advance_settled {r : Receiver} {outcome : TransferOutcome} (h : r.phase = .settled outcome)
    (inbox : Link) :
    ∃ r', advance sha met 1 r inbox = some (r', inbox) ∧ r'.phase.isEnded = true ∧
      r'.target = r.target := by
  refine ⟨r.onSettled sha outcome met, ?_, rfl, rfl⟩
  have hstep : r.step sha met inbox = some (r.onSettled sha outcome met, none, inbox) := by
    rw [Receiver.step]
    dsimp only
    rw [h]
  rw [advance_succ sha met hstep]
  rfl

theorem step_acknowledge {r : Receiver} (hphase : r.phase = .acknowledge)
    (hsession : r.session = ⟨.upload, .host, .awaitingCommitted⟩) (hwrite : met.write = .done)
    (inbox : Link) :
    ∃ r' output, r.step sha met inbox = some (r', output, inbox) ∧
      r'.phase = .settled (.committed r.temp.written) ∧ r'.target = r.target := by
  obtain ⟨direction, session, phase, remotePath, fileName, declaredSize, temp, target, audit⟩ := r
  subst hphase hsession
  refine ⟨⟨direction, ⟨.upload, .host, .committed⟩, .settled (.committed temp.written), remotePath,
    fileName, declaredSize, temp, target, audit⟩, some (whole .committed (frameOf .committed)), ?_, rfl,
    rfl⟩
  rw [Receiver.step]
  dsimp only [Receiver.onAcknowledge, Receiver.send]
  rw [hwrite]
  rfl

/-- The sizes and the digest are those of the written file. -/
theorem verify_ok {r : Receiver} {content : Bytes} (htemp : r.temp = ⟨content, content.length, content⟩)
    {actualSize : UInt64} {digest : Sha256Digest} :
    r.verify sha actualSize digest = .ok () ↔
      content.length = r.declaredSize.toNat ∧ actualSize = r.declaredSize ∧ digest = sha content := by
  unfold Receiver.verify TempFile.verifyFinish
  rw [htemp]
  constructor
  · intro h
    split_ifs at h with hactual hwritten hdigest
    exact ⟨not_not.1 hwritten, not_not.1 hactual, (not_not.1 hdigest).symm⟩
  · rintro ⟨hwritten, rfl, rfl⟩
    rw [if_neg (not_not.2 rfl), if_neg (not_not.2 hwritten), if_neg (not_not.2 rfl)]

/-- Behind the `Finish`: the file is committed if it is what was declared and the commit is not
refused, and the receiver ends. -/
theorem advance_sealing {r : Receiver} {actualSize : UInt64} {digest : Sha256Digest}
    (hphase : r.phase = .sealing actualSize digest)
    (hsession : r.session = ⟨.upload, .host, .awaitingCommitted⟩) (hwrite : met.write = .done)
    (hfinish : met.finish = none) (inbox : Link) :
    ∃ n r', advance sha met n r inbox = some (r', inbox) ∧ r'.phase.isEnded = true ∧
      r'.target = if r.verify sha actualSize digest = .ok () ∧ met.commit = none then
        some r.temp.content else r.target := by
  have hstep : r.step sha met inbox = some ((r.onSealing sha actualSize digest met).1,
      (r.onSealing sha actualSize digest met).2, inbox) := by
    rw [Receiver.step]
    dsimp only
    rw [hphase]
  -- every refusal settles with the target as it was
  have hrefused : ∀ error fallback, r.onSealing sha actualSize digest met = r.failed error fallback met →
      ∃ n r', advance sha met n r inbox = some (r', inbox) ∧ r'.phase.isEnded = true ∧
        r'.target = r.target := by
    intro error fallback hfailed
    rw [hfailed] at hstep
    have hsettled : (r.failed error fallback met).1.phase =
        .settled (failLocal error fallback met.notice).2 := rfl
    obtain ⟨r', hadvance, hended, htarget⟩ := advance_settled sha met hsettled inbox
    exact ⟨2, r', (advance_succ sha met hstep).trans hadvance, hended, htarget⟩
  cases hverify : r.verify sha actualSize digest with
  | error error =>
    rw [if_neg (by rintro ⟨⟨⟩, -⟩)]
    refine hrefused error .sizeMismatch ?_
    simp only [Receiver.onSealing, hfinish, hverify]
  | ok u =>
    cases hcommit : met.commit with
    | some error =>
      rw [if_neg (by rintro ⟨-, ⟨⟩⟩)]
      refine hrefused error .commitFailed ?_
      simp only [Receiver.onSealing, hfinish, hverify, hcommit]
    | none =>
      rw [if_pos ⟨rfl, rfl⟩]
      simp only [Receiver.onSealing, hfinish, hverify, hcommit] at hstep
      obtain ⟨r', output, hacknowledge, hsettled, htarget⟩ := step_acknowledge sha met
        (r := { r with
          target := some r.temp.content
          audit := { r.audit with digest := some digest }
          phase := .acknowledge }) rfl hsession hwrite inbox
      obtain ⟨r'', hadvance, hended, htarget'⟩ := advance_settled sha met hsettled inbox
      refine ⟨3, r'', ?_, hended, htarget'.trans htarget⟩
      rw [advance_succ sha met hstep, advance_succ sha met hacknowledge, hadvance]

/-- A receiver of an upload that is to resolve its destination. -/
structure AtTail (r : Receiver) : Prop where
  direction : r.direction = .upload
  phase : r.phase = .prepare
  session : r.session = ⟨.upload, .host, .openSent⟩
  target : r.target = none

/-- The private file is created and `Ready` is sent. -/
theorem advance_ready {r : Receiver} (hr : AtTail r) (hresolve : met.resolve = none)
    (htemp : met.createTemp = none) (hwrite : met.write = .done) (inbox : Link) :
    ∃ r', advance sha met 2 r inbox = some (r', inbox) ∧ Receiving r' ∧ r'.temp = {} ∧
      r'.target = none ∧ r'.declaredSize = r.declaredSize := by
  obtain ⟨direction, session, phase, remotePath, fileName, declaredSize, temp, target, audit⟩ := r
  obtain ⟨rfl, rfl, rfl, rfl⟩ := hr
  refine ⟨⟨.upload, ⟨.upload, .host, .transferring⟩, .receiving, remotePath, fileName, declaredSize, {},
    none, { audit with localPath := met.localPath }⟩, ?_, ⟨rfl, rfl, rfl⟩, rfl, rfl, rfl⟩
  have hprepare : Receiver.step sha ⟨.upload, ⟨.upload, .host, .openSent⟩, .prepare, remotePath,
      fileName, declaredSize, temp, none, audit⟩ met inbox =
      some (⟨.upload, ⟨.upload, .host, .openSent⟩, .ready, remotePath, fileName, declaredSize, {}, none,
        { audit with localPath := met.localPath }⟩, none, inbox) := by
    rw [Receiver.step]
    dsimp only [Receiver.onPrepare]
    rw [hresolve, htemp]
  have hready : Receiver.step sha ⟨.upload, ⟨.upload, .host, .openSent⟩, .ready, remotePath, fileName,
      declaredSize, {}, none, { audit with localPath := met.localPath }⟩ met inbox =
      some (⟨.upload, ⟨.upload, .host, .transferring⟩, .receiving, remotePath, fileName, declaredSize, {},
        none, { audit with localPath := met.localPath }⟩, some (whole .ready (frameOf .ready)), inbox) := by
    rw [Receiver.step]
    dsimp only [Receiver.onReady, Receiver.send]
    rw [hwrite]
    rfl
  rw [advance_succ sha met hprepare, advance_succ sha met hready]
  rfl

/-- The receiver behind a `Finish`. -/
def Receiver.finished (r : Receiver) (actualSize : UInt64) (digest : Sha256Digest) : Receiver :=
  { r with
    session := ⟨.upload, .host, .awaitingCommitted⟩
    phase := .sealing actualSize digest }

theorem step_finish {r : Receiver} (hr : Receiving r) (hcancelled : met.cancelled = false)
    (hfault : met.fault = none) (actualSize : UInt64) (digest : Sha256Digest) (rest : Bytes)
    (closed : Bool) :
    r.step sha met ⟨frameOf (.finish actualSize digest) ++ rest, closed⟩ =
      some (r.finished actualSize digest, none, ⟨rest, closed⟩) := by
  obtain ⟨direction, session, phase, remotePath, fileName, declaredSize, temp, target, audit⟩ := r
  obtain ⟨rfl, rfl, rfl⟩ := hr
  rw [Receiver.step]
  dsimp only
  rw [hcancelled, hfault, read_frame (finish_ok actualSize digest)]
  rfl

end Steps

/-! ## The commit -/

section Tail

variable {Path : Type} {S : StdPath Path} {fs : FileSystem Path} {base : Path}

/-- The directory of a plan is the parent of its final path. -/
theorem parent_of_plan {explicitTarget defaultName : Option String} {plan : DestinationPlan Path}
    (h : resolveDestination S fs base explicitTarget defaultName = .ok plan) :
    S.parent plan.finalPath = some plan.tempDir := by
  have hbuilt : ∀ {finalPath : Path}, buildPlan S fs finalPath = .ok plan →
      S.parent plan.finalPath = some plan.tempDir := by
    intro finalPath hplan
    obtain ⟨rfl, hparent, -⟩ := buildPlan_ok.1 hplan
    exact hparent
  have hin : ∀ {directory : Path}, planInDirectory S fs directory defaultName = .ok plan →
      S.parent plan.finalPath = some plan.tempDir := by
    intro directory hplan
    obtain ⟨name, -, -, hplan⟩ := planInDirectory_ok.1 hplan
    exact hbuilt hplan
  by_cases hempty : explicitTarget.getD "" = ""
  · rw [resolveDestination, if_pos hempty] at h
    exact hin h
  · obtain ⟨target, rfl⟩ : ∃ target, explicitTarget = some target := by
      cases explicitTarget with
      | none => exact absurd rfl hempty
      | some target => exact ⟨target, rfl⟩
    obtain ⟨-, ⟨-, hplan⟩ | ⟨-, hplan⟩⟩ := (resolveDestination_ok hempty).1 h
    · exact hin hplan
    · exact hbuilt hplan

/-- A commit that meets nothing in its way is refused for the name alone. -/
theorem errorOf_commitAsync {tempPath finalPath : Path} (h : S.parent tempPath = S.parent finalPath) :
    errorOf (commitAsync S tempPath finalPath (.ok ())) = none ↔
      validateCommitDestination S finalPath = .ok () := by
  rw [commitAsync, h, if_neg (not_not.2 rfl)]
  cases validateCommitDestination S finalPath with
  | ok u => exact ⟨fun _ => rfl, fun _ => rfl⟩
  | error error => exact ⟨fun h => (by cases h), fun h => (by cases h)⟩

variable (S fs base) in
/-- What the receiver asks for before it creates the target: a destination, a name at its end that the
platform accepts, and the sizes and the digest of what was received. -/
def Acceptable (sha : Bytes → Sha256Digest) (r : Receiver) (blocks : List Bytes)
    (actualSize : UInt64) (digest : Sha256Digest) : Prop :=
  (∃ plan, uploadPlan S fs base r = .ok plan ∧
    validateCommitDestination S plan.finalPath = .ok ()) ∧
    (blocks.map List.length).sum = r.declaredSize.toNat ∧ actualSize = r.declaredSize ∧
    digest = sha blocks.flatten

/-- An upload whose destination is refused ends without a target. -/
theorem advance_refused (sha : Bytes → Sha256Digest) {r : Receiver} (hr : AtTail r)
    {met : ReceiverMet} {error : FileSemanticsError} (hresolve : met.resolve = some error)
    (inbox : Link) :
    ∃ n r', advance sha met n r inbox = some (r', inbox) ∧ r'.phase.isEnded = true ∧
      r'.target = none := by
  have hstep : r.step sha met inbox = some ((r.failed error .invalidRequest met).1,
      (r.failed error .invalidRequest met).2, inbox) := by
    rw [Receiver.step]
    dsimp only [Receiver.onPrepare]
    rw [hr.phase, hresolve]
  have hsettled : (r.failed error .invalidRequest met).1.phase =
      .settled (failLocal error .invalidRequest met.notice).2 := rfl
  obtain ⟨r', hadvance, hended, htarget⟩ := advance_settled sha met hsettled inbox
  exact ⟨2, r', (advance_succ sha met hstep).trans hadvance, hended, htarget.trans hr.target⟩

/-- For every destination, declared size and blocks of a `Data`, with a `Finish` behind them, where
nothing fails by itself: the receiver ends; the target is then what was received or nothing, and it is
what was received exactly if the destination and its name are accepted and both sizes and the digest
are those of what was received. Every block is written to the private file when it arrives, whatever
the declared size. -/
theorem receive_tail_commits (sha : Bytes → Sha256Digest) {r : Receiver} (hr : AtTail r)
    {met : ReceiverMet} (hmet : Undisturbed S fs base r met) {blocks : List Bytes}
    (hblocks : ∀ block ∈ blocks, 1 ≤ block.length ∧ block.length ≤ 65536) (actualSize : UInt64)
    (digest : Sha256Digest) (more : Bytes) (closed : Bool) :
    (∃ n r' inbox,
      advance sha met n r
          ⟨blockFrames blocks ++ (frameOf (.finish actualSize digest) ++ more), closed⟩ =
        some (r', inbox) ∧
      r'.phase.isEnded = true ∧ (r'.target = some blocks.flatten ∨ r'.target = none) ∧
      (r'.target = some blocks.flatten ↔ Acceptable S fs base sha r blocks actualSize digest)) ∧
    ∀ plan, uploadPlan S fs base r = .ok plan → ∀ first later, blocks = first ++ later →
      ∃ r' inbox,
        advance sha met (2 + first.length) r
            ⟨blockFrames blocks ++ (frameOf (.finish actualSize digest) ++ more), closed⟩ =
          some (r', inbox) ∧
        r'.temp.content = first.flatten ∧ r'.target = none := by
  cases hplan : uploadPlan S fs base r with
  | error error =>
    have hresolve : met.resolve = some error := by
      rw [hmet.resolve, hplan]
      rfl
    refine ⟨?_, fun plan h => (by cases h)⟩
    obtain ⟨n, r', hadvance, hended, htarget⟩ := advance_refused sha hr hresolve _
    refine ⟨n, r', _, hadvance, hended, .inr htarget, ?_⟩
    rw [htarget]
    refine ⟨fun h => (by cases h), ?_⟩
    rintro ⟨⟨plan, haccepted, -⟩, -⟩
    rw [hplan] at haccepted
    cases haccepted
  | ok plan =>
    have hresolve : met.resolve = none := by
      rw [hmet.resolve, hplan]
      rfl
    -- the blocks so far, and those that are still on the way
    have hsofar : ∀ first later, blocks = first ++ later → ∃ r',
        advance sha met (2 + first.length) r
            ⟨blockFrames blocks ++ (frameOf (.finish actualSize digest) ++ more), closed⟩ =
          some (r', ⟨blockFrames later ++ (frameOf (.finish actualSize digest) ++ more), closed⟩) ∧
        Receiving r' ∧ r'.temp = ⟨first.flatten, first.flatten.length, first.flatten⟩ ∧
        r'.target = none ∧ r'.declaredSize = r.declaredSize := by
      rintro first later rfl
      obtain ⟨r₁, hready, hreceiving, htemp, htarget, hsize⟩ := advance_ready sha met hr hresolve
        hmet.createTemp hmet.write
        ⟨blockFrames (first ++ later) ++ (frameOf (.finish actualSize digest) ++ more), closed⟩
      refine ⟨{ r₁ with temp := first.foldl TempFile.writeBlock r₁.temp }, ?_,
        ⟨hreceiving.direction, hreceiving.phase, hreceiving.session⟩, ?_, htarget, hsize⟩
      · rw [advance_add sha met hready, blockFrames, List.flatMap_append, List.append_assoc]
        exact advance_blocks sha met hreceiving hmet.cancelled hmet.fault hmet.writeBlock
          (fun block hblock => hblocks block (List.mem_append_left later hblock)) _ closed
      · change first.foldl TempFile.writeBlock r₁.temp = _
        rw [foldl_writeBlock, htemp]
        simp only [List.nil_append, Nat.zero_add]
    refine ⟨?_, fun _ _ first later hcut => ?_⟩
    · obtain ⟨r₁, hblocksRun, hreceiving, htemp, htarget, hsize⟩ :=
        hsofar blocks [] (List.append_nil blocks).symm
      have hfinish := step_finish sha met hreceiving hmet.cancelled hmet.fault actualSize digest more
        closed
      obtain ⟨n, r', hsealing, hended, htarget'⟩ := advance_sealing sha met
        (r := r₁.finished actualSize digest) rfl rfl hmet.write hmet.finish ⟨more, closed⟩
      have hcommit : met.commit = none ↔ validateCommitDestination S plan.finalPath = .ok () := by
        obtain ⟨tempPath, hparent, hcommit⟩ := hmet.commit plan hplan
        rw [hcommit]
        exact errorOf_commitAsync (hparent.trans (parent_of_plan hplan).symm)
      have haccept : ((r₁.finished actualSize digest).verify sha actualSize digest = .ok () ∧
          met.commit = none) ↔ Acceptable S fs base sha r blocks actualSize digest := by
        rw [verify_ok sha (r := r₁.finished actualSize digest) htemp, hcommit, Acceptable, ← hsize, ← List.length_flatten]
        constructor
        · rintro ⟨hverified, hname⟩
          exact ⟨⟨plan, hplan, hname⟩, hverified⟩
        · rintro ⟨⟨plan', hplan', hname⟩, hverified⟩
          cases hplan.symm.trans hplan'
          exact ⟨hverified, hname⟩
      refine ⟨2 + blocks.length + (n + 1), r', ⟨more, closed⟩, ?_, hended, ?_⟩
      · rw [advance_add sha met hblocksRun]
        exact (advance_succ sha met hfinish).trans hsealing
      · rw [← haccept]
        split_ifs at htarget' with hcond
        · have hcontent : r₁.temp.content = blocks.flatten := by rw [htemp]
          rw [htarget'.trans (congrArg some hcontent)]
          exact ⟨.inl rfl, fun _ => hcond, fun _ => rfl⟩
        · rw [htarget'.trans htarget]
          exact ⟨.inr rfl, fun h => (by cases h), fun h => absurd h hcond⟩
    · obtain ⟨r₁, hrun, -, htemp, htarget, -⟩ := hsofar first later hcut
      exact ⟨r₁, _, hrun, by rw [htemp], htarget⟩

end Tail

/-- The receiver of an upload of the given size. -/
def uploadTail (destination fileName : String) (declaredSize : UInt64) : Receiver where
  direction := .upload
  session := ⟨.upload, .host, .openSent⟩
  phase := .prepare
  remotePath := destination
  fileName := fileName
  declaredSize := declaredSize
  temp := {}
  target := none
  audit := { observed := false }

theorem atTail_uploadTail (destination fileName : String) (declaredSize : UInt64) :
    AtTail (uploadTail destination fileName declaredSize) := ⟨rfl, rfl, rfl, rfl⟩

/-- A base directory on each platform, alone in its file system. -/
def loneBase (windows : Bool) : PathParts :=
  PathParts.ofStr windows (if windows then "D:\\work" else "/work")

theorem undisturbed_of_plan {windows : Bool} {r : Receiver} {plan : DestinationPlan PathParts}
    (hplan : uploadPlan (PathParts.platform windows) (.onlyDirectories [loneBase windows])
      (loneBase windows) r = .ok plan) (tempPath : PathParts)
    (hparent : tempPath.parent = some plan.tempDir) (error : Option FileSemanticsError)
    (hcommit : error = errorOf (commitAsync (PathParts.platform windows) tempPath plan.finalPath
      (.ok ()))) :
    Undisturbed (PathParts.platform windows) (.onlyDirectories [loneBase windows]) (loneBase windows)
      r { commit := error } where
  cancelled := rfl
  fault := rfl
  write := rfl
  resolve := by rw [hplan]; rfl
  createTemp := rfl
  writeBlock := rfl
  finish := rfl
  commit plan' h := by
    cases hplan.symm.trans h
    exact ⟨tempPath, hparent, hcommit⟩

/-- An upload of two blocks into the base directory. -/
theorem receive_tail_commits_two :
    ∃ n r' inbox,
      advance (fun _ => .replicate 32 0) {} n (uploadTail "" "a" 2)
          ⟨blockFrames [[1], [2]] ++ (frameOf (.finish 2 (.replicate 32 0)) ++ []), false⟩ =
        some (r', inbox) ∧
      r'.phase.isEnded = true ∧ r'.target = some [1, 2] := by
  have hplan : uploadPlan (PathParts.platform false) (.onlyDirectories [loneBase false])
      (loneBase false) (uploadTail "" "a" 2) =
      .ok ⟨PathParts.ofStr false "/work/a", loneBase false⟩ := by decide +kernel
  have hcommits := receive_tail_commits (fun _ => .replicate 32 0) (atTail_uploadTail "" "a" 2)
    (undisturbed_of_plan hplan (PathParts.ofStr false "/work/.tmp") (by decide +kernel)
      none (by decide +kernel))
    (show ∀ block ∈ ([[1], [2]] : List Bytes), 1 ≤ block.length ∧ block.length ≤ 65536 by decide) 2 (.replicate 32 0) [] false
  obtain ⟨⟨n, r', inbox, hrun, hended, -, htarget⟩, -⟩ := hcommits
  refine ⟨n, r', inbox, hrun, hended, htarget.2 ⟨⟨_, hplan, by decide +kernel⟩, ?_⟩⟩
  exact ⟨rfl, rfl, rfl⟩

/-- A block of two bytes is written though one was declared. On Windows, an upload with the declared
size and digest to a name with a colon is not committed. -/
theorem written_past_and_refused :
    (∃ met r' inbox,
      Undisturbed (PathParts.platform false) (.onlyDirectories [loneBase false]) (loneBase false)
        (uploadTail "" "a" 1) met ∧
      advance (fun _ => .replicate 32 0) met 3 (uploadTail "" "a" 1)
          ⟨blockFrames [[1, 2]] ++ frameOf (.finish 1 (.replicate 32 0)), false⟩ = some (r', inbox) ∧
      r'.declaredSize.toNat < r'.temp.content.length) ∧
    ∃ met n r' inbox,
      Undisturbed (PathParts.platform true) (.onlyDirectories [loneBase true]) (loneBase true)
        (uploadTail "ab:c" "a" 1) met ∧
      advance (fun _ => .replicate 32 0) met n (uploadTail "ab:c" "a" 1)
          ⟨blockFrames [[1]] ++ frameOf (.finish 1 (.replicate 32 0)), false⟩ = some (r', inbox) ∧
      r'.phase = .ended (.failed .invalidFileName) ∧ r'.target = none := by
  have hplan : uploadPlan (PathParts.platform false) (.onlyDirectories [loneBase false])
      (loneBase false) (uploadTail "" "a" 1) =
      .ok ⟨PathParts.ofStr false "/work/a", loneBase false⟩ := by decide +kernel
  have hplan' : uploadPlan (PathParts.platform true) (.onlyDirectories [loneBase true])
      (loneBase true) (uploadTail "ab:c" "a" 1) =
      .ok ⟨PathParts.ofStr true "D:\\work\\ab:c", loneBase true⟩ := by decide +kernel
  refine ⟨?_, ?_⟩
  · have hrun : (advance (fun _ => .replicate 32 0) {} 3 (uploadTail "" "a" 1)
        ⟨blockFrames [[1, 2]] ++ frameOf (.finish 1 (.replicate 32 0)), false⟩).map
        (fun result => (result.1.declaredSize.toNat, result.1.temp.content.length)) = some (1, 2) := by
      decide +kernel
    obtain ⟨⟨r', inbox⟩, hadvance, hsizes⟩ := Option.map_eq_some_iff.1 hrun
    refine ⟨_, r', inbox, undisturbed_of_plan hplan (PathParts.ofStr false "/work/.tmp")
      (by decide +kernel) none (by decide +kernel), hadvance, ?_⟩
    have hdeclared : r'.declaredSize.toNat = 1 := (Prod.mk.inj hsizes).1
    have hwritten : r'.temp.content.length = 2 := (Prod.mk.inj hsizes).2
    omega
  · have hrun : (advance (fun _ => .replicate 32 0) { commit := some .invalidFileName } 6
        (uploadTail "ab:c" "a" 1)
        ⟨blockFrames [[1]] ++ frameOf (.finish 1 (.replicate 32 0)), false⟩).map
        (fun result => (result.1.phase, result.1.target)) =
          some (.ended (.failed .invalidFileName), none) := by
      decide +kernel
    obtain ⟨⟨r', inbox⟩, hadvance, hend⟩ := Option.map_eq_some_iff.1 hrun
    obtain ⟨hphase, htarget⟩ := Prod.mk.inj hend
    exact ⟨_, 6, r', inbox, undisturbed_of_plan hplan' (PathParts.ofStr true "D:\\work\\.tmp")
      (by decide +kernel) _ (by decide +kernel), hadvance, hphase, htarget⟩

end Yonder.Transfer
